import Collectors.Proofs.FlowTokens
import Collectors.Proofs.Texts
import Collectors.Yaml.Node

/-!
# Written JSON as a YAML document

Written JSON is YAML on one line in which every collection has brackets. `Json.flow` are the tokens
that a value is written as, by the same recursion as `Json.emit`, and `Json.node` is the node that
they make: an integer is a plain scalar, a string is a quoted one. `Json.ofText?_render` says that
the text of a value in brackets is read as its node, without any names.

It holds of values that *flow* (`Json.Flows`): their strings have printable ASCII only, their
numbers are integers, and their names are short enough to have the colon near.
-/

namespace Collectors

/-! ### Values -/

namespace Json

open Yaml (Layout Position)
open Yaml.Token (Leads StartsWord leads_open leads_close leads_comma leads_string leads_name
  leads_word)
open Yaml.Scalar (Ends)

/-- Whether a name is printable and short enough to be a key. -/
def IsName (name : String) : Prop :=
  (∀ c ∈ name.toList, isPrintable c = true) ∧ (name.toList.flatMap escape).length + 2 ≤ 1024

mutual

/-- Whether the text of a value is YAML for the same value: its strings are printable, its numbers
are integers, and its names are short. -/
def Flows : Json → Prop
  | .null | .bool _ | .number (.int _) => True
  | .number (.real _) => False
  | .string s => ∀ c ∈ s.toList, isPrintable c = true
  | .array items => FlowsItems items
  | .object members => FlowsMembers members

/-- The same of some items. -/
def FlowsItems : List Json → Prop
  | [] => True
  | item :: items => item.Flows ∧ FlowsItems items

/-- The same of some members. -/
def FlowsMembers : List (String × Json) → Prop
  | [] => True
  | (name, value) :: members => IsName name ∧ value.Flows ∧ FlowsMembers members

end

/-- The plain scalar of a word. -/
def word (cs : List Char) : Yaml.Scalar := { text := cs, style := .plain }

/-- The scalar of a string. -/
def quoted (s : String) : Yaml.Scalar := { text := s.toList, style := .doubleQuoted }

mutual

/-- The tokens of a YAML text that a value is written as, in front of some more. -/
def flow : Json → List Yaml.Token → List Yaml.Token
  | .null, rest => .scalar (word ['n', 'u', 'l', 'l']) :: rest
  | .bool true, rest => .scalar (word ['t', 'r', 'u', 'e']) :: rest
  | .bool false, rest => .scalar (word ['f', 'a', 'l', 's', 'e']) :: rest
  | .number n, rest => .scalar (word n.text) :: rest
  | .string s, rest => .scalar (quoted s) :: rest
  | .array [], rest => .openSequence :: .closeSequence :: rest
  | .array (item :: items), rest =>
    .openSequence :: item.flow (flowItems items (.closeSequence :: rest))
  | .object [], rest => .openMapping :: .closeMapping :: rest
  | .object ((name, value) :: members), rest =>
    .openMapping :: .key :: .scalar (quoted name) :: .value ::
      value.flow (flowMembers members (.closeMapping :: rest))

/-- The tokens of items after the first. -/
def flowItems : List Json → List Yaml.Token → List Yaml.Token
  | [], rest => rest
  | item :: items, rest => .comma :: item.flow (flowItems items rest)

/-- The tokens of members after the first. -/
def flowMembers : List (String × Json) → List Yaml.Token → List Yaml.Token
  | [], rest => rest
  | (name, value) :: members, rest =>
    .comma :: .key :: .scalar (quoted name) :: .value :: value.flow (flowMembers members rest)

end

/-- Whether a value has brackets around it. -/
def isBracketed : Json → Bool
  | .array _ | .object _ => true
  | _ => false

theorem isWordChar_of_isDigit {c : Char} (h : c.isDigit = true) : Yaml.isWordChar c = true := by
  simp [Yaml.isWordChar, Char.isAlphanum, h]

theorem exists_toDigits_eq_cons (n : Nat) :
    ∃ c cs, Nat.toDigits 10 n = c :: cs ∧ c.isDigit = true := by
  have hdigits := isDigit_toDigits n
  cases h : Nat.toDigits 10 n with
  | nil => exact absurd h Nat.toDigits_ne_nil
  | cons c cs =>
    rw [h] at hdigits
    exact ⟨c, cs, rfl, hdigits c List.mem_cons_self⟩

/-- The text of an integer is a word. -/
theorem word_intText (i : Int) :
    StartsWord (intText i) ∧ ∀ c ∈ intText i, Yaml.isWordChar c = true := by
  have hword : ∀ n, ∀ c ∈ Nat.toDigits 10 n, Yaml.isWordChar c = true := fun n c hc =>
    isWordChar_of_isDigit (isDigit_toDigits n c hc)
  cases i with
  | ofNat n =>
    obtain ⟨c, cs, heq, hc⟩ := exists_toDigits_eq_cons n
    refine ⟨?_, hword n⟩
    rw [intText, heq]
    exact .plain (by simp [Char.isAlphanum, hc]) cs
  | negSucc n =>
    obtain ⟨c, cs, heq, hc⟩ := exists_toDigits_eq_cons (n + 1)
    refine ⟨?_, List.forall_mem_cons.2 ⟨rfl, hword (n + 1)⟩⟩
    rw [intText, heq]
    exact .minus hc cs

theorem ends_emitItems (items : List Json) {rest : List Char} (h : Ends rest) :
    Ends (emitItems items rest) := by
  cases items with
  | nil => exact h
  | cons item items => exact ⟨',', _, rfl, by simp⟩

theorem ends_emitMembers (members : List (String × Json)) {rest : List Char} (h : Ends rest) :
    Ends (emitMembers members rest) := by
  cases members with
  | nil => exact h
  | cons member members => exact ⟨',', _, rfl, by simp⟩

mutual

/-- **A written value is scanned into its tokens.** The layout stays calm, within the same
brackets. A value without brackets of its own needs some around it: only there does the sign behind
it end a word. -/
theorem leads_emit : (v : Json) → v.Flows → {s : Layout} → {p : Position} → {rest : List Char} →
    s.Calm → (v.isBracketed = true ∨ 0 < s.outer.length ∧ Ends rest) →
    ∃ s' p', Leads s p (v.emit rest) v.flow s' p' rest ∧ s'.outer.length = s.outer.length
  | .null, _, s, p, rest, hs, h =>
    have h := h.resolve_left Bool.false_ne_true
    leads_word ['n', 'u', 'l', 'l'] (.plain rfl _) (by simp [Yaml.isWordChar]) h.2 hs h.1 p
  | .bool true, _, s, p, rest, hs, h =>
    have h := h.resolve_left Bool.false_ne_true
    leads_word ['t', 'r', 'u', 'e'] (.plain rfl _) (by simp [Yaml.isWordChar]) h.2 hs h.1 p
  | .bool false, _, s, p, rest, hs, h =>
    have h := h.resolve_left Bool.false_ne_true
    leads_word ['f', 'a', 'l', 's', 'e'] (.plain rfl _) (by simp [Yaml.isWordChar]) h.2 hs h.1 p
  | .number (.int i), _, s, p, rest, hs, h =>
    have h := h.resolve_left Bool.false_ne_true
    leads_word (intText i) (word_intText i).1 (word_intText i).2 h.2 hs h.1 p
  | .number (.real _), hv, _, _, _, _, _ => hv.elim
  | .string text, hv, s, p, rest, hs, _ => by
    obtain ⟨s', hleads, hlength, -⟩ := leads_string hv hs p rest
    exact ⟨s', _, hleads, hlength⟩
  | .array [], _, s, p, rest, hs, _ => by
    obtain ⟨s₁, hopen, -, hlength₁⟩ := leads_open (.inl ⟨rfl, rfl⟩) hs p (']' :: rest)
    obtain ⟨s₂, hclose, hlength₂⟩ :=
      leads_close (.inl ⟨rfl, rfl⟩) hopen.calm hlength₁ (p.along 1) rest
    exact ⟨s₂, _, hopen.trans hclose, hlength₂⟩
  | .array (item :: items), hv, s, p, rest, hs, _ => by
    have hend : Ends (']' :: rest) := ⟨']', rest, rfl, by simp⟩
    obtain ⟨s₁, hopen, -, hlength₁⟩ :=
      leads_open (.inl ⟨rfl, rfl⟩) hs p (item.emit (emitItems items (']' :: rest)))
    obtain ⟨s₂, p₂, hitem, hlength₂⟩ :=
      leads_emit item hv.1 hopen.calm (.inr ⟨by omega, ends_emitItems items hend⟩)
    obtain ⟨s₃, p₃, hitems, hlength₃⟩ := leads_emitItems items hv.2 hitem.calm (by omega) hend
    obtain ⟨s₄, hclose, hlength₄⟩ :=
      leads_close (.inl ⟨rfl, rfl⟩) hitems.calm
        (hlength₃.trans (hlength₂.trans hlength₁)) p₃ rest
    exact ⟨s₄, _, ((hopen.trans hitem).trans hitems).trans hclose, hlength₄⟩
  | .object [], _, s, p, rest, hs, _ => by
    obtain ⟨s₁, hopen, -, hlength₁⟩ := leads_open (.inr ⟨rfl, rfl⟩) hs p ('}' :: rest)
    obtain ⟨s₂, hclose, hlength₂⟩ :=
      leads_close (.inr ⟨rfl, rfl⟩) hopen.calm hlength₁ (p.along 1) rest
    exact ⟨s₂, _, hopen.trans hclose, hlength₂⟩
  | .object ((name, value) :: members), hv, s, p, rest, hs, _ => by
    have hend : Ends ('}' :: rest) := ⟨'}', rest, rfl, by simp⟩
    obtain ⟨s₁, hopen, hkey, hlength₁⟩ := leads_open (.inr ⟨rfl, rfl⟩) hs p
      (emitString name (':' :: value.emit (emitMembers members ('}' :: rest))))
    obtain ⟨s₂, p₂, hname, hlength₂⟩ :=
      leads_name hv.1.1 hv.1.2 hopen.calm (by omega) hkey (p.along 1) _
    obtain ⟨s₃, p₃, hvalue, hlength₃⟩ :=
      leads_emit value hv.2.1 hname.calm (.inr ⟨by omega, ends_emitMembers members hend⟩)
    obtain ⟨s₄, p₄, hmembers, hlength₄⟩ :=
      leads_emitMembers members hv.2.2 hvalue.calm (by omega) hend
    obtain ⟨s₅, hclose, hlength₅⟩ :=
      leads_close (.inr ⟨rfl, rfl⟩) hmembers.calm
        (hlength₄.trans (hlength₃.trans (hlength₂.trans hlength₁))) p₄ rest
    exact ⟨s₅, _, (((hopen.trans hname).trans hvalue).trans hmembers).trans hclose, hlength₅⟩

theorem leads_emitItems : (items : List Json) → FlowsItems items → {s : Layout} →
    {p : Position} → {rest : List Char} → s.Calm → 0 < s.outer.length → Ends rest →
    ∃ s' p', Leads s p (emitItems items rest) (flowItems items) s' p' rest ∧
      s'.outer.length = s.outer.length
  | [], _, s, p, _, hs, _, _ => ⟨s, p, ⟨rfl, hs, fun _ => rfl⟩, rfl⟩
  | item :: items, hv, s, p, rest, hs, hflow, hend => by
    obtain ⟨s₁, hcomma, -, hlength₁⟩ := leads_comma hs p (item.emit (emitItems items rest))
    obtain ⟨s₂, p₂, hitem, hlength₂⟩ :=
      leads_emit item hv.1 hcomma.calm (.inr ⟨by omega, ends_emitItems items hend⟩)
    obtain ⟨s₃, p₃, hitems, hlength₃⟩ := leads_emitItems items hv.2 hitem.calm (by omega) hend
    exact ⟨s₃, p₃, (hcomma.trans hitem).trans hitems, by omega⟩

theorem leads_emitMembers : (members : List (String × Json)) → FlowsMembers members →
    {s : Layout} → {p : Position} → {rest : List Char} → s.Calm → 0 < s.outer.length →
    Ends rest →
    ∃ s' p', Leads s p (emitMembers members rest) (flowMembers members) s' p' rest ∧
      s'.outer.length = s.outer.length
  | [], _, s, p, _, hs, _, _ => ⟨s, p, ⟨rfl, hs, fun _ => rfl⟩, rfl⟩
  | (name, value) :: members, hv, s, p, rest, hs, hflow, hend => by
    obtain ⟨s₁, hcomma, hkey, hlength₁⟩ := leads_comma hs p
      (emitString name (':' :: value.emit (emitMembers members rest)))
    obtain ⟨s₂, p₂, hname, hlength₂⟩ :=
      leads_name hv.1.1 hv.1.2 hcomma.calm (by omega) hkey (p.along 1) _
    obtain ⟨s₃, p₃, hvalue, hlength₃⟩ :=
      leads_emit value hv.2.1 hname.calm (.inr ⟨by omega, ends_emitMembers members hend⟩)
    obtain ⟨s₄, p₄, hmembers, hlength₄⟩ :=
      leads_emitMembers members hv.2.2 hvalue.calm (by omega) hend
    exact ⟨s₄, p₄, ((hcomma.trans hname).trans hvalue).trans hmembers, by omega⟩

end

/-- **The text of a value in brackets consists of its tokens.** -/
theorem scan?_emit {v : Json} (hv : v.Flows) (hbracketed : v.isBracketed = true) :
    Yaml.Token.scan? (v.emit []) = some (v.flow []) := by
  have hcalm : ({} : Layout).Calm := ⟨rfl, nofun, nofun⟩
  obtain ⟨s, p, hleads, -⟩ : ∃ s p, Leads {} {} (v.emit []) v.flow s p [] ∧ _ :=
    leads_emit v hv hcalm (.inl hbracketed)
  rw [Yaml.Token.scan?, hleads.scan, Yaml.Token.scanFrom_nil hleads.calm, hleads.tokens]
  rfl

/-! ### Texts -/

theorem printable_escape {c : Char} (h : isPrintable c = true) :
    (escape c).all isPrintable = true := by
  have hslash : isPrintable '\\' = true := rfl
  rcases Yaml.Scalar.escape_cases h with ⟨-, hescape⟩ | ⟨-, -, hescape⟩ <;>
    simp [hescape, hslash, h]

theorem isPrintable_of_isDigit {c : Char} (h : c.isDigit = true) : isPrintable c = true := by
  simp only [Char.isDigit, Bool.and_eq_true, decide_eq_true_eq] at h
  have hlow : 48 ≤ c.toNat := h.1
  have hhigh : c.toNat ≤ 57 := h.2
  simp only [isPrintable, Bool.and_eq_true, decide_eq_true_eq]
  exact ⟨show 32 ≤ c.toNat by omega, show c.toNat ≤ 126 by omega⟩

theorem printable_intText (i : Int) : (intText i).all isPrintable = true := by
  have hdigits : ∀ n, (Nat.toDigits 10 n).all isPrintable = true := fun n =>
    List.all_eq_true.2 fun c hc => isPrintable_of_isDigit (isDigit_toDigits n c hc)
  cases i with
  | ofNat n => exact hdigits n
  | negSucc n => exact hdigits (n + 1)

theorem printable_emitString {s : String} (hs : ∀ c ∈ s.toList, isPrintable c = true)
    {rest : List Char} (h : rest.all isPrintable = true) :
    (emitString s rest).all isPrintable = true := by
  rw [emitString, List.cons_append, List.all_cons, List.all_append, List.all_cons, h,
    List.all_flatMap, List.all_eq_true.2 fun c hc => printable_escape (hs c hc)]
  rfl

mutual

theorem printable_emit : (v : Json) → v.Flows → {rest : List Char} →
    rest.all isPrintable = true → (v.emit rest).all isPrintable = true
  | .null, _, _, h => h
  | .bool true, _, _, h => h
  | .bool false, _, _, h => h
  | .number (.int i), _, _, h => by
    rw [emit, List.all_append, h, Bool.and_true]
    exact printable_intText i
  | .number (.real _), hv, _, _ => hv.elim
  | .string s, hv, _, h => printable_emitString hv h
  | .array [], _, _, h => h
  | .array (item :: items), hv, _, h => printable_emit item hv.1 (printable_emitItems items hv.2 h)
  | .object [], _, _, h => h
  | .object ((_, value) :: members), hv, _, h =>
    printable_emitString hv.1.1
      (printable_emit value hv.2.1 (printable_emitMembers members hv.2.2 h))

theorem printable_emitItems : (items : List Json) → FlowsItems items → {rest : List Char} →
    rest.all isPrintable = true → (emitItems items rest).all isPrintable = true
  | [], _, _, h => h
  | item :: items, hv, _, h => printable_emit item hv.1 (printable_emitItems items hv.2 h)

theorem printable_emitMembers : (members : List (String × Json)) → FlowsMembers members →
    {rest : List Char} → rest.all isPrintable = true →
    (emitMembers members rest).all isPrintable = true
  | [], _, _, h => h
  | (_, value) :: members, hv, _, h =>
    printable_emitString hv.1.1
      (printable_emit value hv.2.1 (printable_emitMembers members hv.2.2 h))

end

theorem unify_of_printable {cs : List Char} (h : cs.all isPrintable = true) :
    Yaml.unify cs = cs := by
  fun_induction Yaml.unify cs with
  | case1 => rfl
  | case2 rest ih => cases h
  | case3 c rest hne ih =>
    rw [List.all_cons, Bool.and_eq_true] at h
    have hkept : ¬(c = '\r' ∨ c = '\u0085') := by
      rintro (rfl | rfl) <;> cases h.1
    rw [if_neg hkept, ih h.2]

theorem unified?_render {v : Json} (hv : v.Flows) : Yaml.unified? v.render = some (v.emit []) := by
  have hprintable : (v.emit []).all isPrintable = true := printable_emit v hv rfl
  have hallowed : (v.emit []).all Yaml.isAllowed = true :=
    List.all_eq_true.2 fun c hc => by
      have h := List.all_eq_true.1 hprintable c hc
      simp only [isPrintable] at h
      simp [Yaml.isAllowed, h]
  rw [Yaml.unified?, render, String.toList_ofList, if_pos hallowed, unify_of_printable hprintable]

/-! ### Nodes -/

mutual

/-- The node that a value is read as. -/
def node : Json → Yaml.Node
  | .null => .scalar none (word ['n', 'u', 'l', 'l'])
  | .bool true => .scalar none (word ['t', 'r', 'u', 'e'])
  | .bool false => .scalar none (word ['f', 'a', 'l', 's', 'e'])
  | .number n => .scalar none (word n.text)
  | .string s => .scalar none (quoted s)
  | .array items => .sequence (nodeItems items)
  | .object members => .mapping (nodeMembers members)

/-- Items as nodes. -/
def nodeItems : List Json → List Yaml.Node
  | [] => []
  | item :: items => item.node :: nodeItems items

/-- Members as nodes. -/
def nodeMembers : List (String × Json) → List (Yaml.Node × Yaml.Node)
  | [] => []
  | (name, value) :: members => (.scalar none (quoted name), value.node) :: nodeMembers members

end

end Json

/-! ### Reading the tokens of a value -/

namespace Yaml.Document.Reading

variable {r s : Reading} {t : Token}

theorem read_nil (r : Reading) : r.read [] = r.finish := by
  rw [read]

theorem read_take (h : r.step t = some { taken := true, reading := s }) (rest : List Token) :
    r.read (t :: rest) = s.read rest := by
  rw [read]
  split
  · rename_i heq
    cases h.symm.trans heq
  · rename_i heq
    obtain rfl := Option.some.inj (h.symm.trans heq)
    rfl

theorem read_stay (h : r.step t = some { taken := false, reading := s }) (rest : List Token) :
    r.read (t :: rest) = s.read (t :: rest) := by
  rw [read]
  split
  · rename_i heq
    cases h.symm.trans heq
  · rename_i heq
    obtain rfl := Option.some.inj (h.symm.trans heq)
    rfl

/-- The same with another thing due. -/
def awaiting (due : Due) (r : Reading) : Reading := { r with due }

/-- The same within one more collection. -/
def inside (frame : Frame) (r : Reading) : Reading := { r with frames := frame :: r.frames }

/-- The first token of an item is read like that of any node. -/
theorem read_item (hclose : t ≠ .closeSequence) (hkey : t ≠ .key) (r : Reading)
    (rest : List Token) :
    (r.awaiting .item).read (t :: rest) = (r.awaiting (.node .flow {})).read (t :: rest) := by
  refine read_stay ?_ rest
  show (r.awaiting .item).item t = _
  rw [item, if_neg hclose, if_neg hkey]
  rfl

/-- The key of a member is the scalar in front of the colon. -/
theorem read_member (r : Reading) (done : List (Node × Node)) (slot : Slot) (c : Scalar)
    (rest : List Token) :
    ((r.inside (.mapping .flow none done slot)).awaiting .member).read
        (.key :: .scalar c :: .value :: rest) =
      ((r.inside (.mapping .flow none done (.value (.scalar none c)))).awaiting
        (.node .flow {})).read rest := by
  rw [read_take rfl, read_take rfl, read_take rfl]
  rfl

end Yaml.Document.Reading

namespace Json

open Yaml.Document Yaml.Document.Reading

/-- A value starts neither with the end of a sequence nor with a key. -/
theorem flow_startsNode (v : Json) (rest : List Yaml.Token) :
    ∃ t ts, v.flow rest = t :: ts ∧ t ≠ .closeSequence ∧ t ≠ .key := by
  cases v with
  | bool b => cases b <;> exact ⟨_, _, rfl, by simp, by simp⟩
  | array items => cases items <;> exact ⟨_, _, rfl, by simp, by simp⟩
  | object members => cases members <;> exact ⟨_, _, rfl, by simp, by simp⟩
  | _ => exact ⟨_, _, rfl, by simp, by simp⟩

/-- An item is read like any node. -/
theorem read_item_flow (v : Json) (r : Reading) (rest : List Yaml.Token) :
    (r.awaiting .item).read (v.flow rest) = (r.awaiting (.node .flow {})).read (v.flow rest) := by
  obtain ⟨t, ts, hts, hclose, hkey⟩ := v.flow_startsNode rest
  rw [hts]
  exact read_item hclose hkey r ts

mutual

/-- **The tokens of a value are read as its node**, wherever a node is due. -/
theorem read_flow : (v : Json) → (r : Reading) → (shape : Shape) → (rest : List Yaml.Token) →
    (r.awaiting (.node shape {})).read (v.flow rest) = (r.put none v.node).read rest
  | .null, _, _, rest => read_take rfl rest
  | .bool true, _, _, rest => read_take rfl rest
  | .bool false, _, _, rest => read_take rfl rest
  | .number _, _, _, rest => read_take rfl rest
  | .string _, _, _, rest => read_take rfl rest
  | .array [], _, _, rest => by
    rw [flow, read_take rfl, read_take rfl]
    rfl
  | .array (item :: items), r, _, rest => by
    rw [flow, read_take rfl]
    show ((r.inside (.sequence .flow none [])).awaiting .item).read _ = _
    rw [read_item_flow, read_flow item]
    exact read_flowItems items r [item.node] rest
  | .object [], _, _, rest => by
    rw [flow, read_take rfl, read_take rfl]
    rfl
  | .object ((name, value) :: members), r, _, rest => by
    rw [flow, read_take rfl]
    show ((r.inside (.mapping .flow none [] (.key true))).awaiting .member).read _ = _
    rw [read_member, read_flow value]
    exact read_flowMembers members r [(.scalar none (quoted name), value.node)] rest

theorem read_flowItems : (items : List Json) → (r : Reading) → (done : List Yaml.Node) →
    (rest : List Yaml.Token) →
    ((r.inside (.sequence .flow none done)).awaiting (.behindItem .flow)).read
        (flowItems items (.closeSequence :: rest)) =
      (r.put none (.sequence (done.reverse ++ nodeItems items))).read rest
  | [], _, _, rest => by
    rw [flowItems, nodeItems, List.append_nil, read_take rfl]
    rfl
  | item :: items, r, done, rest => by
    rw [flowItems, read_take rfl, nodeItems]
    show ((r.inside (.sequence .flow none done)).awaiting .item).read _ = _
    rw [read_item_flow, read_flow item]
    have hrest := read_flowItems items r (item.node :: done) rest
    rw [List.reverse_cons, List.append_assoc] at hrest
    exact hrest

theorem read_flowMembers : (members : List (String × Json)) → (r : Reading) →
    (done : List (Yaml.Node × Yaml.Node)) → (rest : List Yaml.Token) →
    ((r.inside (.mapping .flow none done (.key true))).awaiting (.behindMember .flow)).read
        (flowMembers members (.closeMapping :: rest)) =
      (r.put none (.mapping (done.reverse ++ nodeMembers members))).read rest
  | [], _, _, rest => by
    rw [flowMembers, nodeMembers, List.append_nil, read_take rfl]
    rfl
  | (name, value) :: members, r, done, rest => by
    rw [flowMembers, read_take rfl, nodeMembers]
    show ((r.inside (.mapping .flow none done (.key true))).awaiting .member).read _ = _
    rw [read_member, read_flow value]
    have hrest := read_flowMembers members r ((.scalar none (quoted name), value.node) :: done) rest
    rw [List.reverse_cons, List.append_assoc] at hrest
    exact hrest

end

/-- **The text of a value in brackets is read as its node.** -/
theorem ofText?_render {v : Json} (hv : v.Flows) (hbracketed : v.isBracketed = true) :
    Yaml.Document.ofText? v.render = some { root := v.node, names := {} } := by
  have hstart : ofTokens? (v.flow []) =
      Reading.read { explicit := false, handles := [] } (v.flow []) := by
    cases v with
    | array items => cases items <;> rfl
    | object members => cases members <;> rfl
    | _ => cases hbracketed
  rw [ofText?, unified?_render hv, Option.bind_some, scan?_emit hv hbracketed, Option.bind_some,
    hstart]
  exact (read_flow v { explicit := false, handles := [] } .block []).trans (read_nil _)

end Json
end Collectors
