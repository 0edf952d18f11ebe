import CircuitRunner.Yaml.Token

/-! Documents of the settings language as trees. -/
namespace CircuitRunner.Yaml

inductive Node (L : Type) where
  | scalar (label : Option L) (tag : Option String) (style : ScalarStyle) (text : String)
  | sequence (label : Option L) (items : List (Node L))
  | mapping (label : Option L) (entries : List (Node L × Node L))
  | alias (label : L)

namespace Node

def blank {L : Type} : Node L := .scalar none none .plain ""

def properties? (handles : List (String × String)) :
    List Token → Option (Option String × Option String × List Token)
  | .anchor name :: .tag tag :: rest | .tag tag :: .anchor name :: rest => do
    return (some name, some (← tag.full? handles), rest)
  | .anchor name :: rest => some (some name, none, rest)
  | .tag tag :: rest => do return (none, some (← tag.full? handles), rest)
  | rest => some (none, none, rest)

mutual

/-- Reads a node. Blocks are read only where `block` allows them; `indentless` allows a
sequence at the column of the key it belongs to. Under the tag of a lone exclamation mark a
scalar counts as untagged. -/
def parse (handles : List (String × String)) (block indentless : Bool) :
    Nat → List Token → Option (Node String × List Token)
  | 0, _ => none
  | fuel + 1, tokens =>
    match tokens with
    | .alias name :: rest => some (.alias name, rest)
    | _ => do
      let (label, tag, content) ← properties? handles tokens
      match content, block, indentless with
      | .scalar style text :: rest, _, _ =>
        some (.scalar label (tag.filter (· ≠ "!")) style text, rest)
      | .flowSequenceStart :: rest, _, _ => flowSequence handles label true [] fuel rest
      | .flowMappingStart :: rest, _, _ => flowMapping handles label true [] fuel rest
      | .blockEntry :: _, _, true => indentlessSequence handles label [] fuel content
      | .blockSequenceStart :: rest, true, _ => blockSequence handles label [] fuel rest
      | .blockMappingStart :: rest, true, _ => blockMapping handles label [] fuel rest
      | _, _, _ =>
        if label.isSome || tag.isSome then some (.scalar label tag .plain "", content) else none

def blockSequence (handles : List (String × String)) (label : Option String)
    (items : List (Node String)) : Nat → List Token → Option (Node String × List Token)
  | 0, _ => none
  | fuel + 1, tokens =>
    match tokens with
    | .blockEnd :: rest => some (.sequence label items.reverse, rest)
    | .blockEntry :: rest =>
      match rest with
      | .blockEntry :: _ | .blockEnd :: _ => blockSequence handles label (blank :: items) fuel rest
      | _ => do
        let (item, rest) ← parse handles true false fuel rest
        blockSequence handles label (item :: items) fuel rest
    | _ => none

def indentlessSequence (handles : List (String × String)) (label : Option String)
    (items : List (Node String)) : Nat → List Token → Option (Node String × List Token)
  | 0, _ => none
  | fuel + 1, tokens =>
    match tokens with
    | .blockEntry :: rest =>
      match rest with
      | .blockEntry :: _ | .key :: _ | .value :: _ | .blockEnd :: _ =>
        indentlessSequence handles label (blank :: items) fuel rest
      | _ => do
        let (item, rest) ← parse handles true false fuel rest
        indentlessSequence handles label (item :: items) fuel rest
    | _ => some (.sequence label items.reverse, tokens)

def blockMapping (handles : List (String × String)) (label : Option String)
    (entries : List (Node String × Node String)) :
    Nat → List Token → Option (Node String × List Token)
  | 0, _ => none
  | fuel + 1, tokens =>
    match tokens with
    | .blockEnd :: rest => some (.mapping label entries.reverse, rest)
    | .key :: rest => do
      let (key, rest) ← match rest with
        | .key :: _ | .value :: _ | .blockEnd :: _ => some (blank, rest)
        | _ => parse handles true true fuel rest
      let (value, rest) ← blockValue handles fuel rest
      blockMapping handles label ((key, value) :: entries) fuel rest
    | _ => none

def blockValue (handles : List (String × String)) :
    Nat → List Token → Option (Node String × List Token)
  | 0, _ => none
  | fuel + 1, tokens =>
    match tokens with
    | .value :: rest =>
      match rest with
      | .key :: _ | .value :: _ | .blockEnd :: _ => some (blank, rest)
      | _ => parse handles true true fuel rest
    | _ => some (blank, tokens)

def flowSequence (handles : List (String × String)) (label : Option String) (first : Bool)
    (items : List (Node String)) : Nat → List Token → Option (Node String × List Token)
  | 0, _ => none
  | fuel + 1, tokens =>
    match first, tokens with
    | _, .flowSequenceEnd :: rest => some (.sequence label items.reverse, rest)
    | false, .flowEntry :: .flowSequenceEnd :: rest => some (.sequence label items.reverse, rest)
    | false, .flowEntry :: rest | true, rest => do
      let (item, rest) ← flowItem handles fuel rest
      flowSequence handles label false (item :: items) fuel rest
    | false, _ => none

/-- An item of a flow sequence; a lone entry with a key is a mapping of one entry. The token
that shows the key to be empty is used up. -/
def flowItem (handles : List (String × String)) :
    Nat → List Token → Option (Node String × List Token)
  | 0, _ => none
  | fuel + 1, tokens =>
    match tokens with
    | .key :: rest => do
      let (key, rest) ← match rest with
        | .value :: rest | .flowEntry :: rest | .flowSequenceEnd :: rest => some (blank, rest)
        | _ => parse handles false false fuel rest
      let (value, rest) ← flowValue handles fuel rest
      return (.mapping none [(key, value)], rest)
    | _ => parse handles false false fuel tokens

def flowMapping (handles : List (String × String)) (label : Option String) (first : Bool)
    (entries : List (Node String × Node String)) :
    Nat → List Token → Option (Node String × List Token)
  | 0, _ => none
  | fuel + 1, tokens =>
    match first, tokens with
    | _, .flowMappingEnd :: rest => some (.mapping label entries.reverse, rest)
    | false, .flowEntry :: .flowMappingEnd :: rest => some (.mapping label entries.reverse, rest)
    | false, .flowEntry :: rest | true, rest => do
      let (entry, rest) ← flowPair handles fuel rest
      flowMapping handles label false (entry :: entries) fuel rest
    | false, _ => none

def flowPair (handles : List (String × String)) :
    Nat → List Token → Option ((Node String × Node String) × List Token)
  | 0, _ => none
  | fuel + 1, tokens =>
    match tokens with
    | .key :: rest => do
      let (key, rest) ← match rest with
        | .value :: _ | .flowEntry :: _ | .flowMappingEnd :: _ => some (blank, rest)
        | _ => parse handles false false fuel rest
      let (value, rest) ← flowValue handles fuel rest
      return ((key, value), rest)
    | _ => do
      let (key, rest) ← parse handles false false fuel tokens
      return ((key, blank), rest)

def flowValue (handles : List (String × String)) :
    Nat → List Token → Option (Node String × List Token)
  | 0, _ => none
  | fuel + 1, tokens =>
    match tokens with
    | .value :: rest =>
      match rest with
      | .flowEntry :: _ | .flowSequenceEnd :: _ | .flowMappingEnd :: _ => some (blank, rest)
      | _ => parse handles false false fuel rest
    | _ => some (blank, tokens)

end

def defaultHandles : List (String × String) := [("!", "!"), ("!!", "tag:yaml.org,2002:")]

/-- Reads the directives before a document: at most one version, which has to be 1.1 or 1.2,
and one meaning per handle. Returns the handles, a directive before a default. -/
def directives? (seenVersion : Bool) (handles : List (String × String)) :
    List Token → Option (List (String × String) × List Token)
  | .directive (.version major minor) :: rest =>
    if seenVersion || major ≠ 1 || (minor ≠ 1 && minor ≠ 2) then none
    else directives? true handles rest
  | .directive (.tag handle expansion) :: rest =>
    if (handles.lookup handle).isSome then none
    else directives? seenVersion (handles ++ [(handle, expansion)]) rest
  | rest => some (handles ++ defaultHandles, rest)

/-- The one document of a token list; without content it reads as a blank. After directives
the start of the document has to be marked. Every reading step takes a token or hands on to
one that does, which bounds the steps. -/
def ofTokens? (tokens : List Token) : Option (Node String) := do
  let fuel := 4 * (tokens.length + 1)
  let (handles, content) ← directives? false [] tokens
  let (node, rest) ← match content with
    | [.documentStart] => some (blank, [])
    | .documentStart :: .documentEnd :: rest => some (blank, .documentEnd :: rest)
    | .documentStart :: rest => parse handles true false fuel rest
    | rest =>
      if rest.length < tokens.length then none
      else if rest.isEmpty then some (blank, [])
      else parse handles true false fuel rest
  if rest.all (· == .documentEnd) then some node else none

end Node
end CircuitRunner.Yaml
