import Mathlib.Data.List.Basic

/-! Computations that may fail, described by the condition under which they succeed and the value
that they then have. -/
namespace CircuitRunner

theorem ok_of_bind {ε α β : Type} {attempt : Except ε α} {next : α → Except ε β} {result : β}
    (ok : (attempt >>= next) = .ok result) :
    ∃ value, attempt = .ok value ∧ next value = .ok result := by
  cases attempt with
  | error error => cases ok
  | ok value => exact ⟨value, rfl, ok⟩

theorem ok_of_map {ε α β : Type} {attempt : Except ε α} {change : α → β} {result : β}
    (ok : attempt.map change = .ok result) : ∃ value, attempt = .ok value ∧ change value = result := by
  cases attempt with
  | error error => cases ok
  | ok value => exact ⟨value, rfl, Except.ok.inj ok⟩

theorem ok_of_mapError {ε ε' α : Type} {attempt : Except ε α} {change : ε → ε'} {value : α}
    (ok : attempt.mapError change = .ok value) : attempt = .ok value := by
  cases attempt with
  | error error => cases ok
  | ok actual => exact congrArg Except.ok (Except.ok.inj ok)

theorem error_of_bind {ε α β : Type} {attempt : Except ε α} {next : α → Except ε β} {error : ε}
    (failed : (attempt >>= next) = .error error) :
    attempt = .error error ∨ ∃ value, attempt = .ok value ∧ next value = .error error := by
  cases attempt with
  | error other => exact .inl (congrArg Except.error (Except.error.inj failed))
  | ok value => exact .inr ⟨value, rfl, failed⟩

theorem error_of_map {ε α β : Type} {attempt : Except ε α} {change : α → β} {error : ε}
    (failed : attempt.map change = .error error) : attempt = .error error := by
  cases attempt with
  | error other => exact congrArg Except.error (Except.error.inj failed)
  | ok value => cases failed

theorem error_of_mapError {ε ε' α : Type} {attempt : Except ε α} {change : ε → ε'} {error : ε'}
    (failed : attempt.mapError change = .error error) : ∃ cause, attempt = .error cause ∧ change cause = error := by
  cases attempt with
  | error cause => exact ⟨cause, rfl, Except.error.inj failed⟩
  | ok value => cases failed

/-- A traversal fails with the error of the first item that fails. -/
theorem mapM_error_iff {ε α β : Type} {attempt : α → Except ε β} {items : List α} {error : ε} :
    items.mapM attempt = .error error ↔ ∃ before item after, items = before ++ item :: after ∧
      (∀ earlier ∈ before, ∃ value, attempt earlier = .ok value) ∧ attempt item = .error error := by
  constructor
  · intro failed
    induction items with
    | nil => cases failed
    | cons item items ih =>
      rw [List.mapM_cons] at failed
      rcases error_of_bind failed with first | ⟨value, passed, failed⟩
      · exact ⟨[], item, items, rfl, by simp, first⟩
      · rcases error_of_bind failed with later | ⟨values, _, impossible⟩
        · obtain ⟨before, other, after, rfl, passing, refused⟩ := ih later
          exact ⟨item :: before, other, after, rfl,
            List.forall_mem_cons.2 ⟨⟨value, passed⟩, passing⟩, refused⟩
        · cases impossible
  · rintro ⟨before, item, after, rfl, passing, refused⟩
    induction before with
    | nil =>
      rw [List.nil_append, List.mapM_cons, refused]
      rfl
    | cons first before ih =>
      obtain ⟨⟨value, passed⟩, passing⟩ := List.forall_mem_cons.1 passing
      rw [List.cons_append, List.mapM_cons, passed, ih passing]
      rfl

theorem foldlM_concat {ε α β : Type} (attempt : β → α → Except ε β) (items : List α) (item : α)
    (start : β) :
    (items ++ [item]).foldlM attempt start = items.foldlM attempt start >>= fun state => attempt state item := by
  simp

/-- A run fails with the error of the first step that fails. -/
theorem foldlM_error_iff {ε α β : Type} {attempt : β → α → Except ε β} {items : List α} {start : β}
    {error : ε} :
    items.foldlM attempt start = .error error ↔ ∃ before item state, before ++ [item] <+: items ∧
      before.foldlM attempt start = .ok state ∧ attempt state item = .error error := by
  constructor
  · intro failed
    induction items generalizing start with
    | nil => cases failed
    | cons item items ih =>
      rw [List.foldlM_cons] at failed
      rcases error_of_bind failed with first | ⟨next, passed, failed⟩
      · exact ⟨[], item, start, List.cons_prefix_cons.2 ⟨rfl, List.nil_prefix⟩, rfl, first⟩
      · obtain ⟨before, other, state, begins, ran, refused⟩ := ih failed
        refine ⟨item :: before, other, state, List.cons_prefix_cons.2 ⟨rfl, begins⟩, ?_, refused⟩
        rw [List.foldlM_cons, passed]
        exact ran
  · rintro ⟨before, item, state, ⟨after, rfl⟩, ran, failed⟩
    rw [List.foldlM_append, foldlM_concat, ran]
    change (attempt state item >>= _) = _
    rw [failed]
    rfl

theorem mapM_mapError {ε ε' α β : Type} (attempt : α → Except ε β) (change : ε → ε') (items : List α) :
    items.mapM (fun item => (attempt item).mapError change) = (items.mapM attempt).mapError change := by
  induction items with
  | nil => rfl
  | cons item items ih =>
    rw [List.mapM_cons, List.mapM_cons, ih]
    cases attempt item with
    | error error => rfl
    | ok value => cases items.mapM attempt <;> rfl

/-- Traversals of two lists that do the same at every position. -/
theorem mapM_zip {m : Type → Type} [Monad m] [LawfulMonad m] {α β γ : Type} {first : α → m γ}
    {second : β → m γ}
    {items : List α} {others : List β} (sameLength : items.length = others.length)
    (each : ∀ pair ∈ items.zip others, first pair.1 = second pair.2) : items.mapM first = others.mapM second := by
  induction items generalizing others with
  | nil =>
    cases others with
    | nil => rfl
    | cons other others => cases sameLength
  | cons item items ih =>
    cases others with
    | nil => cases sameLength
    | cons other others =>
      have head : first item = second other := each (item, other) List.mem_cons_self
      have tail : items.mapM first = others.mapM second :=
        ih (Nat.succ.inj sameLength) fun pair member => each pair (List.mem_cons_of_mem _ member)
      rw [List.mapM_cons, List.mapM_cons, head, tail]

/-- Computations that are equal after a change fail together, or give values that it makes equal. -/
theorem cases_of_map_eq {ε α β : Type} {first second : Except ε α} {change : α → β}
    (same : first.map change = second.map change) :
    (∃ error, first = .error error ∧ second = .error error) ∨
      ∃ value other, first = .ok value ∧ second = .ok other ∧ change value = change other := by
  cases first with
  | error error =>
    cases second with
    | error other => exact .inl ⟨error, rfl, congrArg Except.error (Except.error.inj same).symm⟩
    | ok value => cases same
  | ok value =>
    cases second with
    | error error => cases same
    | ok other => exact .inr ⟨value, other, rfl, rfl, Except.ok.inj same⟩

/-- A computation that succeeds exactly under a condition, and then with the given value. -/
def SucceedsWith {ε α : Type} (attempt : Except ε α) (condition : Prop) (value : α) : Prop :=
  ∀ result, attempt = .ok result ↔ condition ∧ value = result

namespace SucceedsWith
variable {ε α β : Type}

theorem of_pure (value : α) : SucceedsWith (pure value : Except ε α) True value := by
  intro result
  simp [pure, Except.pure]

theorem congr {attempt : Except ε α} {condition same : Prop} {value : α}
    (succeeds : SucceedsWith attempt condition value) (equivalent : condition ↔ same) :
    SucceedsWith attempt same value :=
  fun result => (succeeds result).trans (and_congr_left' equivalent)

theorem replace {attempt : Except ε α} {condition : Prop} {value other : α}
    (succeeds : SucceedsWith attempt condition value) (same : condition → value = other) :
    SucceedsWith attempt condition other :=
  fun result => (succeeds result).trans (and_congr_right fun holds => by rw [same holds])

theorem bind {attempt : Except ε α} {condition further : Prop} {value : α} {next : α → Except ε β}
    {final : β} (succeeds : SucceedsWith attempt condition value)
    (continues : SucceedsWith (next value) further final) :
    SucceedsWith (attempt >>= next) (condition ∧ further) final := by
  intro result
  cases attempt with
  | error error =>
    have never : ¬condition := fun holds => by simpa using (succeeds value).2 ⟨holds, rfl⟩
    simp [Bind.bind, Except.bind, never]
  | ok actual =>
    obtain ⟨holds, rfl⟩ := (succeeds actual).1 rfl
    exact (continues result).trans (by simp [holds])

theorem bind_pure {attempt : Except ε α} {condition : Prop} {value : α}
    (succeeds : SucceedsWith attempt condition value) (change : α → β) :
    SucceedsWith (attempt >>= fun actual => pure (change actual)) condition (change value) :=
  (succeeds.bind (of_pure (change value))).congr (iff_of_eq (and_true _))

theorem map {attempt : Except ε α} {condition : Prop} {value : α}
    (succeeds : SucceedsWith attempt condition value) (change : α → β) :
    SucceedsWith (attempt.map change) condition (change value) := by
  cases attempt <;> exact succeeds.bind_pure change

theorem mapError {ε' : Type} {attempt : Except ε α} {condition : Prop} {value : α}
    (succeeds : SucceedsWith attempt condition value) (change : ε → ε') :
    SucceedsWith (attempt.mapError change) condition value := by
  intro result
  rw [← succeeds result]
  exact ⟨ok_of_mapError, fun ok => by rw [ok]; rfl⟩

theorem mapM {attempt : α → Except ε β} {condition : α → Prop} {value : α → β} {items : List α}
    (each : ∀ item ∈ items, SucceedsWith (attempt item) (condition item) (value item)) :
    SucceedsWith (items.mapM attempt) (∀ item ∈ items, condition item) (items.map value) := by
  induction items with
  | nil => exact (of_pure []).congr (by simp)
  | cons item items ih =>
    have first := each item List.mem_cons_self
    have rest := (ih fun other member => each other (List.mem_cons_of_mem _ member)).bind_pure
      (value item :: ·)
    rw [List.mapM_cons]
    exact (first.bind rest).congr List.forall_mem_cons.symm

theorem foldlM {attempt : β → α → Except ε β} {condition : α → Prop} {value : β → α → β}
    (each : ∀ state item, SucceedsWith (attempt state item) (condition item) (value state item))
    (items : List α) (start : β) :
    SucceedsWith (items.foldlM attempt start) (∀ item ∈ items, condition item)
      (items.foldl value start) := by
  induction items generalizing start with
  | nil => exact (of_pure start).congr (by simp)
  | cons item items ih =>
    rw [List.foldlM_cons]
    exact ((each start item).bind (ih (value start item))).congr List.forall_mem_cons.symm

end SucceedsWith

def Agree {ε α : Type} (first second : Except ε α) : Prop :=
  ∃ value, first = .ok value ∧ second = .ok value

namespace Agree
variable {ε α β : Type}

theorem of_ok {first second : Except ε α} {value : α} (firstOk : first = .ok value)
    (secondOk : second = .ok value) : Agree first second :=
  ⟨value, firstOk, secondOk⟩

theorem right {first second : Except ε α} (agree : Agree first second) : Agree second second := by
  obtain ⟨value, _, ok⟩ := agree
  exact ⟨value, ok, ok⟩

theorem bind {first second : Except ε α} (agree : Agree first second) {next next' : α → Except ε β}
    (continues : ∀ value, Agree (next value) (next' value)) : Agree (first >>= next) (second >>= next') := by
  obtain ⟨value, rfl, rfl⟩ := agree
  exact continues value

theorem map {first second : Except ε α} (agree : Agree first second) (change : α → β) :
    Agree (first.map change) (second.map change) := by
  obtain ⟨value, rfl, rfl⟩ := agree
  exact ⟨change value, rfl, rfl⟩

theorem mapM {first second : α → Except ε β} {items : List α}
    (each : ∀ item ∈ items, Agree (first item) (second item)) :
    Agree (items.mapM first) (items.mapM second) := by
  induction items with
  | nil => exact ⟨[], rfl, rfl⟩
  | cons item items ih =>
    have rest := ih fun other member => each other (List.mem_cons_of_mem _ member)
    rw [List.mapM_cons, List.mapM_cons]
    exact (each item List.mem_cons_self).bind fun value => rest.map (value :: ·)

theorem foldlM {first second : β → α → Except ε β} {items : List α}
    (each : ∀ item ∈ items, ∀ state, Agree (first state item) (second state item)) (start : β) :
    Agree (items.foldlM first start) (items.foldlM second start) := by
  induction items generalizing start with
  | nil => exact ⟨start, rfl, rfl⟩
  | cons item items ih =>
    rw [List.foldlM_cons, List.foldlM_cons]
    exact (each item List.mem_cons_self start).bind
      (ih fun other member => each other (List.mem_cons_of_mem _ member))

end Agree

theorem mapM_ok {ε α β : Type} {attempt : α → Except ε β} {value : α → β} {items : List α}
    (each : ∀ item ∈ items, attempt item = .ok (value item)) :
    items.mapM attempt = .ok (items.map value) := by
  induction items with
  | nil => rfl
  | cons item items ih =>
    rw [List.mapM_cons, each item List.mem_cons_self,
      ih fun other member => each other (List.mem_cons_of_mem _ member)]
    rfl

theorem foldlM_ok {ε α β : Type} {attempt : β → α → Except ε β} {value : β → α → β} {items : List α}
    (each : ∀ item ∈ items, ∀ state, attempt state item = .ok (value state item)) (start : β) :
    items.foldlM attempt start = .ok (items.foldl value start) := by
  induction items generalizing start with
  | nil => rfl
  | cons item items ih =>
    rw [List.foldlM_cons, each item List.mem_cons_self]
    exact ih (fun other member => each other (List.mem_cons_of_mem _ member)) _

/-- A traversal whose steps succeed, with what holds of each result. -/
theorem mapM_invariant {ε α β : Type} {attempt : α → Except ε β} {holds : β → Prop} {items : List α}
    (each : ∀ item ∈ items, ∃ result, attempt item = .ok result ∧ holds result) :
    ∃ results, items.mapM attempt = .ok results ∧ ∀ result ∈ results, holds result := by
  induction items with
  | nil => exact ⟨[], rfl, by simp⟩
  | cons item items ih =>
    obtain ⟨first, firstOk, firstHolds⟩ := each item List.mem_cons_self
    obtain ⟨rest, restOk, restHold⟩ := ih fun other member => each other (List.mem_cons_of_mem _ member)
    refine ⟨first :: rest, ?_, List.forall_mem_cons.2 ⟨firstHolds, restHold⟩⟩
    rw [List.mapM_cons, firstOk, restOk]
    rfl

/-- What every step keeps of its item shows in the results, item by item. -/
theorem mapM_preserves {ε α β γ : Type} {attempt : α → Except ε β} {before : α → γ} {after : β → γ}
    (each : ∀ item result, attempt item = .ok result → after result = before item) {items : List α}
    {results : List β} (ran : items.mapM attempt = .ok results) : results.map after = items.map before := by
  induction items generalizing results with
  | nil =>
    cases ran
    rfl
  | cons item items ih =>
    rw [List.mapM_cons] at ran
    obtain ⟨first, firstRan, ran⟩ := ok_of_bind ran
    obtain ⟨rest, restRan, same⟩ := ok_of_bind ran
    cases same
    rw [List.map_cons, List.map_cons, each item first firstRan, ih restRan]

/-- A run that follows another fold step by step, and does not fail. -/
theorem foldlM_simulates {ε α β γ : Type} (related : γ → β → Prop) (model : γ → α → γ)
    {attempt : β → α → Except ε β} {items : List α}
    (each : ∀ item ∈ items, ∀ reference state, related reference state →
      ∃ next, attempt state item = .ok next ∧ related (model reference item) next)
    (reference : γ) {start : β} (first : related reference start) :
    ∃ final, items.foldlM attempt start = .ok final ∧ related (items.foldl model reference) final := by
  induction items generalizing reference start with
  | nil => exact ⟨start, rfl, first⟩
  | cons item items ih =>
    obtain ⟨next, stepped, kept⟩ := each item List.mem_cons_self reference start first
    rw [List.foldlM_cons, stepped]
    exact ih (fun other member => each other (List.mem_cons_of_mem _ member)) _ kept

/-- What every step keeps holds at the end, and no step fails. -/
theorem foldlM_invariant {ε α β : Type} (holds : β → Prop) {attempt : β → α → Except ε β}
    {items : List α}
    (each : ∀ item ∈ items, ∀ state, holds state → ∃ next, attempt state item = .ok next ∧ holds next)
    {start : β} (first : holds start) : ∃ final, items.foldlM attempt start = .ok final ∧ holds final :=
  foldlM_simulates (fun _ : Unit => holds) (fun _ _ => ()) (fun item member _ => each item member) () first

/-- What one item brings about whatever the state, and the later items keep, holds at the end. -/
theorem foldlM_established {ε α β : Type} (holds : β → Prop) {attempt : β → α → Except ε β}
    {before after : List α} {item : α}
    (runs : ∀ other ∈ before, ∀ state, ∃ next, attempt state other = .ok next)
    (brings : ∀ state, ∃ next, attempt state item = .ok next ∧ holds next)
    (keeps : ∀ other ∈ after, ∀ state, holds state → ∃ next, attempt state other = .ok next ∧ holds next)
    (start : β) : ∃ final, (before ++ item :: after).foldlM attempt start = .ok final ∧ holds final := by
  obtain ⟨middle, reached, _⟩ := foldlM_invariant (fun _ : β => True)
    (fun other member state _ => (runs other member state).imp fun _ ran => ⟨ran, trivial⟩)
    (trivial : (fun _ : β => True) start)
  obtain ⟨next, stepped, holdsNext⟩ := brings middle
  obtain ⟨final, finished, holdsFinal⟩ := foldlM_invariant holds keeps holdsNext
  refine ⟨final, ?_, holdsFinal⟩
  rw [List.foldlM_append, reached]
  change (item :: after).foldlM attempt middle = _
  rw [List.foldlM_cons, stepped]
  exact finished

theorem foldlM_map {ε α β γ : Type} {attempt : β → α → Except ε β} {reduced : γ → α → Except ε γ}
    {change : β → γ} (each : ∀ state item, (attempt state item).map change = reduced (change state) item)
    (items : List α) (start : β) :
    (items.foldlM attempt start).map change = items.foldlM reduced (change start) := by
  induction items generalizing start with
  | nil => rfl
  | cons item items ih =>
    rw [List.foldlM_cons, List.foldlM_cons, ← each]
    cases attempt start item with
    | error error => rfl
    | ok next => exact ih next

theorem toList_mapM {ε α β : Type} {n : Nat} (attempt : α → Except ε β) (items : Vector α n) :
    (items.mapM attempt).map Vector.toList = items.toList.mapM attempt := by
  have arrays : Vector.toArray <$> items.mapM attempt = items.toArray.mapM attempt := Vector.toArray_mapM
  have lists : items.toArray.mapM attempt = List.toArray <$> items.toList.mapM attempt := by
    rw [← List.mapM_toArray]
    rfl
  rw [lists] at arrays
  cases ran : items.mapM attempt <;> cases listed : items.toList.mapM attempt <;> rw [ran, listed] at arrays
  · exact congrArg Except.error (Except.error.inj arrays)
  · cases arrays
  · cases arrays
  · refine congrArg Except.ok ?_
    rw [Vector.toList, Except.ok.inj arrays]

end CircuitRunner
