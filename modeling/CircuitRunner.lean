import CircuitRunner.Backend
import CircuitRunner.Configuration.Document
import CircuitRunner.Configuration.Format
import CircuitRunner.Double
import CircuitRunner.Engine.Timed
import CircuitRunner.Logging
import CircuitRunner.Operation.Format
import CircuitRunner.RandomSource
import CircuitRunner.Registers.Format
import CircuitRunner.Sample.Format
import CircuitRunner.Simulator
import CircuitRunner.Proofs.BasisIndex
import CircuitRunner.Proofs.BitRow
import CircuitRunner.Proofs.BroadcastObservable
import CircuitRunner.Proofs.CheckedRun
import CircuitRunner.Proofs.ClearedQubit
import CircuitRunner.Proofs.CoherentJob
import CircuitRunner.Proofs.CollectedRows
import CircuitRunner.Proofs.ControlledGate
import CircuitRunner.Proofs.CountedQubits
import CircuitRunner.Proofs.DeclaredOutputs
import CircuitRunner.Proofs.DensityMatrix
import CircuitRunner.Proofs.DiagonalObservable
import CircuitRunner.Proofs.DoubleText
import CircuitRunner.Proofs.ExactDistribution
import CircuitRunner.Proofs.ExactNumber
import CircuitRunner.Proofs.FilledProgram
import CircuitRunner.Proofs.FormulaParser
import CircuitRunner.Proofs.GateIsometry
import CircuitRunner.Proofs.IdentityPadding
import CircuitRunner.Proofs.InPlaceKernel
import CircuitRunner.Proofs.InPlaceSweep
import CircuitRunner.Proofs.InverseSampling
import CircuitRunner.Proofs.Kernel
import CircuitRunner.Proofs.LocalUnitary
import CircuitRunner.Proofs.LoopCount
import CircuitRunner.Proofs.MergedRegisters
import CircuitRunner.Proofs.NegatedSymbol
import CircuitRunner.Proofs.NestedOperation
import CircuitRunner.Proofs.ObservableAction
import CircuitRunner.Proofs.OperatorAlgebra
import CircuitRunner.Proofs.ParityMean
import CircuitRunner.Proofs.ProductAverage
import CircuitRunner.Proofs.ProductRegistry
import CircuitRunner.Proofs.RegisterRows
import CircuitRunner.Proofs.RegisterSize
import CircuitRunner.Proofs.RepeatedShots
import CircuitRunner.Proofs.ResetChannel
import CircuitRunner.Proofs.ShortestDecimal
import CircuitRunner.Proofs.SignedExpression
import CircuitRunner.Proofs.SimulatedSamples
import CircuitRunner.Proofs.StateVector
import CircuitRunner.Proofs.StoredCircuit
import CircuitRunner.Proofs.StoredValue
import CircuitRunner.Proofs.Substitution
import CircuitRunner.Proofs.SymbolicExpression
import CircuitRunner.Proofs.TableDispatch
import CircuitRunner.Proofs.TableLookup
import CircuitRunner.Proofs.UnitaryGate
import CircuitRunner.Proofs.UnitNorm
import CircuitRunner.Proofs.UnrolledRun
import CircuitRunner.Proofs.Unrolling
import CircuitRunner.Proofs.VectorEvaluation
import CircuitRunner.Proofs.WellDeclared
