import Collectors.Yaml.Token

/-!
# Nodes of a YAML document

A `Node` is a scalar, a sequence, a mapping, or an alias: a reference to a node of the same
document. `Document.ofTokens?` builds the nodes of a text that holds at most one document. It
keeps a list of the open collections (`Frame`) and what is due next (`Due`), so that the depth of
a document costs no recursion.

The nodes that aliases refer to are numbered. A new name gets as its number how many names were
known before it, and so does a name that is used again; the last node to start under a number is
the one that the number refers to.
-/

namespace Collectors
namespace Yaml

/-- A node of a document. -/
inductive Node where
  | scalar (tag : Option (List Char)) (s : Scalar)
  | sequence (items : List Node)
  | mapping (members : List (Node × Node))
  | alias (number : Nat)

/-- The node that stands where nothing is written. -/
def Node.empty : Node := .scalar none { text := [], style := .plain }

/-- The names of nodes, as far as a document was read. -/
structure Names where
  /-- The number that a name has. -/
  numbers : List (List Char × Nat) := []
  /-- The last node that started under a number. -/
  latest : List (Nat × Nat) := []
  /-- How many named nodes have started. -/
  started : Nat := 0
  /-- The named nodes that are complete, by the order in which they started. -/
  nodes : List (Nat × Node) := []

namespace Names

/-- Starts a named node; it is known as the answer from then on. -/
def start (a : Names) (name : List Char) : Nat × Names :=
  let number := a.numbers.length
  (a.started,
    { a with
      numbers := (name, number) :: a.numbers.filter fun entry => entry.1 ≠ name
      latest := (number, a.started) :: a.latest
      started := a.started + 1 })

/-- Completes a node that was started. -/
def complete (a : Names) (start : Option Nat) (n : Node) : Names :=
  match start with
  | some i => { a with nodes := (i, n) :: a.nodes }
  | none => a

/-- The node that a number refers to. -/
def node? (a : Names) (number : Nat) : Option Node :=
  (a.latest.lookup number).bind fun i => a.nodes.lookup i

end Names

/-- A document: its node, and the nodes that aliases refer to. -/
structure Document where
  root : Node
  names : Names

namespace Document

/-- The node that an alias refers to; any other node refers to itself. -/
def target? (d : Document) : Node → Option Node
  | .alias number => d.names.node? number
  | n => some n

/-- How a collection is written: as lines of their own, as items that are not indented below
their key, or within brackets. -/
inductive Shape where
  | block
  | indentless
  | flow
  deriving DecidableEq

/-- What the next node of a mapping is. -/
inductive Slot where
  /-- A key; its value is written only if `valued`. -/
  | key (valued : Bool)
  | value (key : Node)

/-- A collection that is open; its parts stand last first, and `start` is its place among the
named nodes. -/
inductive Frame where
  | sequence (shape : Shape) (start : Option Nat) (items : List Node)
  | mapping (shape : Shape) (start : Option Nat) (members : List (Node × Node)) (slot : Slot)
  /-- A mapping with one member within the brackets of a sequence. -/
  | pair (key : Option Node)

/-- What was said about a node in front of it. -/
structure Properties where
  name : Option (List Char) := none
  tag : Option (List Char) := none

/-- What is due next. -/
inductive Due where
  /-- A node, of a shape that its place allows. -/
  | node (shape : Shape) (p : Properties)
  /-- An item within brackets, or their end. -/
  | item
  /-- A member within braces, or their end. -/
  | member
  /-- The key of a mapping with one member. -/
  | pairKey
  /-- What separates items from each other, or ends them. -/
  | behindItem (shape : Shape)
  /-- What separates members from each other, or ends them. -/
  | behindMember (shape : Shape)
  /-- The colon behind a key. -/
  | value
  /-- The end of the document whose node is `root`. -/
  | done (root : Node)

/-- How many steps that read nothing a state may take while no collection is closed. -/
def Due.rank : Due → Nat
  | .item | .member | .pairKey => 4
  | .node _ _ => 3
  | .behindItem .indentless | .value => 2
  | .behindItem .block | .behindItem .flow | .behindMember _ | .done _ => 1

/-- Puts a complete node where it belongs. -/
def place (n : Node) : List Frame → Due × List Frame
  | [] => (.done n, [])
  | .sequence shape start items :: frames =>
    (.behindItem shape, .sequence shape start (n :: items) :: frames)
  | .mapping shape start members (.key true) :: frames =>
    (.value, .mapping shape start members (.value n) :: frames)
  | .mapping shape start members (.key false) :: frames =>
    (.behindMember shape, .mapping shape start ((n, .empty) :: members) (.key true) :: frames)
  | .mapping shape start members (.value key) :: frames =>
    (.behindMember shape, .mapping shape start ((key, n) :: members) (.key true) :: frames)
  | .pair none :: frames => (.value, .pair (some n) :: frames)
  | .pair (some key) :: frames => place (.mapping [(key, n)]) frames

theorem length_place_le (n : Node) (frames : List Frame) :
    (place n frames).2.length ≤ frames.length := by
  fun_induction place n frames with
  | case7 _ _ _ ih => exact Nat.le_succ_of_le ih
  | case1 | case2 | case3 | case4 | case5 | case6 => simp

theorem rank_place_lt (n : Node) (frames : List Frame) : (place n frames).1.rank < 3 := by
  fun_induction place n frames with
  | case2 _ shape => cases shape <;> simp [Due.rank]
  | case7 _ _ _ ih => exact ih
  | case1 | case3 | case4 | case5 | case6 => simp [Due.rank]

/-- What was read of a document. -/
structure Reading where
  /-- Whether a line marks the start of the document. -/
  explicit : Bool
  /-- What the handles of tags stand for. -/
  handles : List (List Char × List Char)
  names : Names := {}
  /-- The open collections, innermost first. -/
  frames : List Frame := []
  due : Due := .node .block {}

namespace Reading

/-- What to do with a token: whether it has been read, and what was read then. -/
structure Step where
  taken : Bool
  reading : Reading

/-- The next thing is due once the token is read. -/
def take (r : Reading) (due : Due) : Option Step :=
  some { taken := true, reading := { r with due } }

/-- The next thing is due at the token. -/
def stay (r : Reading) (due : Due) : Option Step :=
  some { taken := false, reading := { r with due } }

/-- Starts a node with its properties: its place among the named nodes. -/
def start (p : Properties) (r : Reading) : Option Nat × Reading :=
  match p.name with
  | none => (none, r)
  | some name =>
    let (i, names) := r.names.start name
    (some i, { r with names })

/-- Completes a node and puts it where it belongs. -/
def put (start : Option Nat) (n : Node) (r : Reading) : Reading :=
  let (due, frames) := place n r.frames
  { r with names := r.names.complete start n, due, frames }

/-- Opens a collection behind its properties. -/
def enter (p : Properties) (frame : Option Nat → Frame) (due : Due) (r : Reading) :
    Option Step :=
  let (i, r) := r.start p
  { r with frames := frame i :: r.frames }.take due

/-- Closes the innermost collection, when its end is a token or in front of one. -/
def close (taken : Bool) (r : Reading) : Option Step :=
  match r.frames with
  | .sequence _ start items :: frames =>
    some { taken, reading := { r with frames }.put start (.sequence items.reverse) }
  | .mapping _ start members _ :: frames =>
    some { taken, reading := { r with frames }.put start (.mapping members.reverse) }
  | _ => none

/-- What a tag stands for; the handles that every document knows come last. -/
def meaning? (t : Tag) (r : Reading) : Option (List Char) :=
  if t.handle.isEmpty then some t.suffix
  else
    let known := r.handles ++ [(['!'], ['!']), (['!', '!'], "tag:yaml.org,2002:".toList)]
    (known.lookup t.handle).map (· ++ t.suffix)

/-- Whether a node may be missing in front of a token. -/
def mayBeMissing (t : Token) : List Frame → Bool
  | .sequence .block _ _ :: _ => t = .entry || t = .blockEnd
  | .sequence .indentless _ _ :: _ => t = .entry || t = .key || t = .value || t = .blockEnd
  | .mapping .block _ _ _ :: _ => t = .key || t = .value || t = .blockEnd
  | .mapping _ _ _ (.key true) :: _ => t = .value || t = .comma || t = .closeMapping
  | .mapping _ _ _ (.value _) :: _ => t = .comma || t = .closeMapping
  | .pair (some _) :: _ => t = .comma || t = .closeSequence
  | _ => false

/-- Whether a document may hold nothing in front of a token. -/
def mayBeBlank (t : Token) (r : Reading) : Bool :=
  r.explicit && r.frames.isEmpty &&
    match t with
    | .directive _ | .documentStart | .documentEnd => true
    | _ => false

/-- Completes the scalar that stands where nothing but properties is written. -/
def putMissing (p : Properties) (r : Reading) : Reading :=
  let (i, r) := r.start p
  r.put i (.scalar p.tag { text := [], style := .plain })

/-- Reads a token where a node is due. -/
def node (shape : Shape) (p : Properties) (t : Token) (r : Reading) : Option Step :=
  let bare := p.name.isNone && p.tag.isNone
  match t with
  | .anchor name => if p.name.isSome then none else r.take (.node shape { p with name := some name })
  | .tag t =>
    if p.tag.isSome then none
    else (r.meaning? t).bind fun tag => r.take (.node shape { p with tag := some tag })
  | .alias name =>
    if bare then
      (r.names.numbers.lookup name).map fun number =>
        { taken := true, reading := r.put none (.alias number) }
    else none
  | .scalar s =>
    let (i, r) := r.start p
    some { taken := true, reading := r.put i (.scalar (p.tag.filter (· ≠ ['!'])) s) }
  | .openSequence => r.enter p (.sequence .flow · []) .item
  | .openMapping => r.enter p (.mapping .flow · [] (.key true)) .member
  | t =>
    if t = .entry ∧ shape = .indentless then
      r.enter p (.sequence .indentless · []) (.node .block {})
    else if t = .blockSequence ∧ shape ≠ .flow then
      r.enter p (.sequence .block · []) (.behindItem .block)
    else if t = .blockMapping ∧ shape ≠ .flow then
      r.enter p (.mapping .block · [] (.key true)) (.behindMember .block)
    else if !bare || mayBeMissing t r.frames || r.mayBeBlank t then
      some { taken := false, reading := r.putMissing p }
    else none

/-- The same with another slot in the innermost mapping. -/
def withSlot (slot : Slot) (r : Reading) : Reading :=
  match r.frames with
  | .mapping shape start members _ :: frames =>
    { r with frames := .mapping shape start members slot :: frames }
  | _ => r

/-- Reads a token where an item within brackets is due. -/
def item (t : Token) (r : Reading) : Option Step :=
  if t = .closeSequence then r.close true
  else if t = .key then { r with frames := .pair none :: r.frames }.take .pairKey
  else r.stay (.node .flow {})

/-- Reads a token where a member within braces is due. -/
def member (t : Token) (r : Reading) : Option Step :=
  if t = .closeMapping then r.close true
  else if t = .key then (r.withSlot (.key true)).take (.node .flow {})
  else (r.withSlot (.key false)).stay (.node .flow {})

/-- Reads a token where the key of a mapping with one member is due. -/
def pairKey (t : Token) (r : Reading) : Option Step :=
  if t = .value ∨ t = .comma ∨ t = .closeSequence then
    some { taken := true, reading := r.put none .empty }
  else r.stay (.node .flow {})

/-- Reads a token behind an item. -/
def behindItem (shape : Shape) (t : Token) (r : Reading) : Option Step :=
  match shape with
  | .block =>
    if t = .entry then r.take (.node .block {}) else if t = .blockEnd then r.close true else none
  | .indentless => if t = .entry then r.take (.node .block {}) else r.close false
  | .flow =>
    if t = .comma then r.take .item else if t = .closeSequence then r.close true else none

/-- Reads a token behind a member. -/
def behindMember (shape : Shape) (t : Token) (r : Reading) : Option Step :=
  if shape = .flow then
    if t = .comma then r.take .member else if t = .closeMapping then r.close true else none
  else if t = .key then r.take (.node .indentless {})
  else if t = .blockEnd then r.close true
  else none

/-- Reads a token behind a key; without a colon the value is missing. -/
def value (t : Token) (r : Reading) : Option Step :=
  match r.frames with
  | .mapping shape start members (.value key) :: frames =>
    if t = .value then r.take (.node (if shape = .flow then .flow else .indentless) {})
    else
      { r with
        frames := .mapping shape start ((key, .empty) :: members) (.key true) :: frames }.stay
          (.behindMember shape)
  | .pair (some key) :: frames =>
    if t = .value then r.take (.node .flow {})
    else
      some { taken := false, reading := { r with frames }.put none (.mapping [(key, .empty)]) }
  | _ => none

/-- Reads a token. -/
def step (t : Token) (r : Reading) : Option Step :=
  match r.due with
  | .node shape p => r.node shape p t
  | .item => r.item t
  | .member => r.member t
  | .pairKey => r.pairKey t
  | .behindItem shape => r.behindItem shape t
  | .behindMember shape => r.behindMember shape t
  | .value => r.value t
  | .done _ => if t = .documentEnd then r.take r.due else none

/-- The document when no token is left. -/
def finish (r : Reading) : Option Document :=
  match r.due with
  | .done root => some { root, names := r.names }
  | .node _ p =>
    if r.frames.isEmpty && (r.explicit || p.name.isSome || p.tag.isSome) then
      match (r.putMissing p).due with
      | .done root => some { root, names := (r.putMissing p).names }
      | _ => none
    else none
  | _ => none

/-! ### A token is read after finitely many steps -/

/-- Whether `b` has fewer open collections than `a`, or as many and fewer steps to take. -/
def Before (b a : Reading) : Prop :=
  b.frames.length < a.frames.length ∨
    b.frames.length = a.frames.length ∧ b.due.rank < a.due.rank

theorem frames_start (p : Properties) (r : Reading) : (r.start p).2.frames = r.frames := by
  unfold start
  split <;> rfl

theorem before_put {a r : Reading} {start : Option Nat} {n : Node}
    (h : r.frames.length < a.frames.length ∨
      r.frames.length = a.frames.length ∧ 3 ≤ a.due.rank) : Before (r.put start n) a := by
  have hl := length_place_le n r.frames
  have hr := rank_place_lt n r.frames
  simp only [put, Before]
  omega

theorem before_close {r : Reading} {s : Step} (h : r.close false = some s) :
    Before s.reading r := by
  unfold close at h
  split at h
  · rename_i hf
    simp only [Option.some.injEq] at h
    subst h
    exact before_put (.inl (by simp [hf]))
  · rename_i hf
    simp only [Option.some.injEq] at h
    subst h
    exact before_put (.inl (by simp [hf]))
  · cases h

theorem before_putMissing {r : Reading} {shape : Shape} {p q : Properties}
    (h : r.due = .node shape p) : Before (r.putMissing q) r := by
  have hf : (r.start q).2.frames.length = r.frames.length := by rw [frames_start]
  exact before_put (.inr ⟨hf, by simp [h, Due.rank]⟩)

theorem before_node {shape : Shape} {p : Properties} {t : Token} {r : Reading} {s : Step}
    (hd : r.due = .node shape p) (h : r.node shape p t = some s) (ht : s.taken = false) :
    Before s.reading r := by
  unfold node at h
  simp only at h
  split at h
  · split at h <;> simp [take] at h
    subst h
    cases ht
  · split at h
    · cases h
    · obtain ⟨tag, -, h⟩ := Option.bind_eq_some_iff.1 h
      simp only [take, Option.some.injEq] at h
      subst h
      cases ht
  · split at h
    · obtain ⟨number, -, rfl⟩ := Option.map_eq_some_iff.1 h
      cases ht
    · cases h
  · simp only [Option.some.injEq] at h
    subst h
    cases ht
  · simp only [enter, take, Option.some.injEq] at h
    subst h
    cases ht
  · simp only [enter, take, Option.some.injEq] at h
    subst h
    cases ht
  · split at h
    · simp only [enter, take, Option.some.injEq] at h
      subst h
      cases ht
    · split at h
      · simp only [enter, take, Option.some.injEq] at h
        subst h
        cases ht
      · split at h
        · simp only [enter, take, Option.some.injEq] at h
          subst h
          cases ht
        · split at h
          · simp only [Option.some.injEq] at h
            subst h
            exact before_putMissing hd
          · cases h

theorem length_withSlot (slot : Slot) (r : Reading) :
    (r.withSlot slot).frames.length = r.frames.length := by
  unfold withSlot
  split <;> simp_all

theorem taken_close {taken : Bool} {r : Reading} {s : Step} (h : r.close taken = some s) :
    s.taken = taken := by
  unfold close at h
  split at h <;> simp at h <;> subst h <;> rfl

theorem before_step {t : Token} {r : Reading} {s : Step} (h : r.step t = some s)
    (ht : s.taken = false) : Before s.reading r := by
  unfold step at h
  split at h
  · rename_i hd
    exact before_node hd h ht
  · rename_i hd
    unfold item at h
    split at h
    · simp [taken_close h] at ht
    · split at h <;> simp only [take, stay, Option.some.injEq] at h <;> subst h
      · cases ht
      · exact .inr ⟨rfl, by simp [hd, Due.rank]⟩
  · rename_i hd
    unfold member at h
    split at h
    · simp [taken_close h] at ht
    · split at h <;> simp only [take, stay, Option.some.injEq] at h <;> subst h
      · cases ht
      · exact .inr ⟨length_withSlot _ r, by simp [hd, Due.rank]⟩
  · rename_i hd
    unfold pairKey at h
    split at h <;> simp only [stay, Option.some.injEq] at h <;> subst h
    · cases ht
    · exact .inr ⟨rfl, by simp [hd, Due.rank]⟩
  · unfold behindItem at h
    split at h
    · split at h
      · simp only [take, Option.some.injEq] at h
        subst h
        cases ht
      · split at h
        · simp [taken_close h] at ht
        · cases h
    · split at h
      · simp only [take, Option.some.injEq] at h
        subst h
        cases ht
      · exact before_close h
    · split at h
      · simp only [take, Option.some.injEq] at h
        subst h
        cases ht
      · split at h
        · simp [taken_close h] at ht
        · cases h
  · unfold behindMember at h
    split at h
    · split at h
      · simp only [take, Option.some.injEq] at h
        subst h
        cases ht
      · split at h
        · simp [taken_close h] at ht
        · cases h
    · split at h
      · simp only [take, Option.some.injEq] at h
        subst h
        cases ht
      · split at h
        · simp [taken_close h] at ht
        · cases h
  · rename_i hd
    unfold value at h
    split at h
    · rename_i shape _ _ _ _ hf
      split at h <;> simp only [take, stay, Option.some.injEq] at h <;> subst h
      · cases ht
      · exact .inr ⟨by simp [hf], by simp [hd, Due.rank]⟩
    · rename_i hf
      split at h
      · simp only [take, Option.some.injEq] at h
        subst h
        cases ht
      · simp only [Option.some.injEq] at h
        subst h
        exact before_put (.inl (by simp [hf]))
    · cases h
  · split at h
    · simp only [take, Option.some.injEq] at h
      subst h
      cases ht
    · cases h

/-- Reads tokens. -/
def read (r : Reading) (ts : List Token) : Option Document :=
  match ts with
  | [] => r.finish
  | t :: rest =>
    match _h : r.step t with
    | none => none
    | some s => if _ht : s.taken then read s.reading rest else read s.reading (t :: rest)
termination_by (ts.length, r.frames.length, r.due.rank)
decreasing_by
  · exact Prod.Lex.left _ _ (Nat.lt_succ_self _)
  · refine Prod.Lex.right _ ?_
    rcases before_step _h (by simpa using _ht) with h | ⟨h, h'⟩
    · exact Prod.Lex.left _ _ h
    · rw [h]
      exact Prod.Lex.right _ h'

end Reading

/-- What the directives in front of a document say about the handles of tags; `none` if one of
them stands there twice, or names a version that is not known. -/
def handles? (version : Bool) (handles : List (List Char × List Char)) :
    List Directive → Option (List (List Char × List Char))
  | [] => some handles
  | .version major minor :: rest =>
    if version || major ≠ 1 || (minor ≠ 1 && minor ≠ 2) then none else handles? true handles rest
  | .tag handle stem :: rest =>
    if (handles.lookup handle).isSome then none
    else handles? version (handles ++ [(handle, stem)]) rest

/-- The directive that a token is. -/
def directive? : Token → Option Directive
  | .directive d => some d
  | _ => none

/-- The document that some tokens make; nothing makes a document that is empty. -/
def ofTokens? (ts : List Token) : Option Document :=
  let directives := (ts.takeWhile fun t => (directive? t).isSome).filterMap directive?
  match ts.dropWhile fun t => (directive? t).isSome with
  | [] => if directives.isEmpty then some { root := .empty, names := {} } else none
  | .documentStart :: rest =>
    (handles? false [] directives).bind fun handles =>
      Reading.read { explicit := true, handles } rest
  | ts =>
    if directives.isEmpty then Reading.read { explicit := false, handles := [] } ts else none

/-- The document in a text. -/
def ofText? (text : String) : Option Document :=
  ((unified? text).bind Token.scan?).bind ofTokens?

end Document
end Yaml
end Collectors
