import Collectors.Json.Bytes
import Collectors.Proofs.Documents

/-!
# String literals

`Json.Unescapes` says what the characters between two quotes stand for, and `Json.IsLiteral` which
texts are a string. `Json.ofText_eq_string_iff` says that these texts, and no others, are read as
that string: the reader waits for the second half of a pair (`Token.Pending`), and what it begins to
read as an array or an object never turns out to be a string (`Document.isContainer_read`).
-/

namespace Collectors
namespace Json

/-- The character that two halves of a pair stand for. -/
def pairChar (high low : Nat) : Char :=
  Char.ofNat (0x10000 + 1024 * (high - 0xD800) + (low - 0xDC00))

/-- Whether the characters between two quotes stand for a content. -/
inductive Unescapes : List Char → List Char → Prop where
  | nil : Unescapes [] []
  /-- Most characters stand for themselves. -/
  | plain {c : Char} {body content : List Char} (hquote : c ≠ '"') (hslash : c ≠ '\\')
      (hcontrol : ¬ c.toNat < 32) (rest : Unescapes body content) :
      Unescapes (c :: body) (c :: content)
  | simple {c e : Char} {body content : List Char} (escape : Token.simpleEscape? c = some e)
      (rest : Unescapes body content) : Unescapes ('\\' :: c :: body) (e :: content)
  /-- A unit that is no half of a pair is a character. -/
  | unit {a b c d : Char} {u : Nat} {body content : List Char}
      (digits : Token.unit? a b c d = some u) (whole : u < 0xD800 ∨ 0xE000 ≤ u)
      (rest : Unescapes body content) :
      Unescapes ('\\' :: 'u' :: a :: b :: c :: d :: body) (Char.ofNat u :: content)
  /-- Two halves of a pair make up one character. -/
  | pair {a b c d a' b' c' d' : Char} {high low : Nat} {body content : List Char}
      (digits : Token.unit? a b c d = some high) (first : 0xD800 ≤ high ∧ high < 0xDC00)
      (digits' : Token.unit? a' b' c' d' = some low) (second : 0xDC00 ≤ low ∧ low < 0xE000)
      (rest : Unescapes body content) :
      Unescapes ('\\' :: 'u' :: a :: b :: c :: d :: '\\' :: 'u' :: a' :: b' :: c' :: d' :: body)
        (pairChar high low :: content)

/-- Whether a text is a string with the given content, perhaps with blanks around it. -/
def IsLiteral (text content : String) : Prop :=
  ∃ front body back, text.toList = front ++ '"' :: (body ++ '"' :: back) ∧
    (∀ c ∈ front, Token.isBlank c = true) ∧ (∀ c ∈ back, Token.isBlank c = true) ∧
    Unescapes body content.toList

namespace Token

/-! ### The body of a string -/

/-- What is left to read when the first half of a pair may be waiting: `content` is what the rest
stands for. -/
def Pending (rest : List Char) : Option Nat → List Char → List Char → Prop
  | none, cs, content => ∃ body, cs = body ++ '"' :: rest ∧ Unescapes body content
  | some high, cs, content => ∃ a b c d low body content', unit? a b c d = some low ∧
      (0xDC00 ≤ low ∧ low < 0xE000) ∧ Unescapes body content' ∧
      cs = '\\' :: 'u' :: a :: b :: c :: d :: (body ++ '"' :: rest) ∧
      content = pairChar high low :: content'

theorem flush_eq_some {half : Option Nat} {found : Option (List Char)} {cs : List Char}
    (h : flush half found = some cs) : half = none ∧ found = some cs := by
  cases half with
  | none => exact ⟨rfl, h⟩
  | some u => cases h

/-- The unit of an escape goes in front of what is read behind it. -/
theorem pending_addUnit {half : Option Nat} {found : Option (List Char)} {a b c d : Char}
    {u : Nat} {cs out rest : List Char} (hu : unit? a b c d = some u)
    (h : ∃ f content, (addUnit half found u).2 = some f ∧ out = f.reverse ++ content ∧
      Pending rest (addUnit half found u).1 cs content) :
    ∃ f content, found = some f ∧ out = f.reverse ++ content ∧
      Pending rest half ('\\' :: 'u' :: a :: b :: c :: d :: cs) content := by
  obtain ⟨f, content, hf, hout, hpending⟩ := h
  unfold addUnit at hf hpending
  split at hf
  · -- A first half waits for the second, which the rest begins with.
    rename_i hfirst
    rw [if_pos hfirst] at hpending
    obtain ⟨rfl, rfl⟩ := flush_eq_some hf
    obtain ⟨a', b', c', d', low, body, content', hlow, hsecond, hbody, rfl, rfl⟩ := hpending
    exact ⟨f, _, rfl, hout, _, rfl, .pair hu hfirst hlow hsecond hbody⟩
  · rename_i hfirst
    rw [if_neg hfirst] at hpending
    split at hf
    · rename_i hsecond
      rw [if_pos hsecond] at hpending
      cases half with
      | none => cases hf
      | some high =>
        obtain ⟨g, rfl, rfl⟩ := Option.map_eq_some_iff.1 hf
        obtain ⟨body, rfl, hbody⟩ := hpending
        refine ⟨g, pairChar high u :: content, rfl, ?_, a, b, c, d, u, body, content, hu, hsecond,
          hbody, rfl, rfl⟩
        rw [hout, List.reverse_cons, List.append_assoc]
        rfl
    · rename_i hsecond
      rw [if_neg hsecond] at hpending
      obtain ⟨g, hg, rfl⟩ := Option.map_eq_some_iff.1 hf
      obtain ⟨rfl, rfl⟩ := flush_eq_some hg
      obtain ⟨body, rfl, hbody⟩ := hpending
      refine ⟨g, Char.ofNat u :: content, rfl, ?_, _, rfl, .unit hu (by omega) hbody⟩
      rw [hout, List.reverse_cons, List.append_assoc]
      rfl

/-- A character goes in front of what is read behind it, and no half of a pair waits for it. -/
theorem pending_flush {half : Option Nat} {found : Option (List Char)} {e : Char}
    {cs out rest : List Char}
    (h : ∃ f content, (flush half found).map (e :: ·) = some f ∧ out = f.reverse ++ content ∧
      Pending rest none cs content) :
    half = none ∧ ∃ f content, found = some f ∧ out = f.reverse ++ e :: content ∧
      ∃ body, cs = body ++ '"' :: rest ∧ Unescapes body content := by
  obtain ⟨f, content, hf, hout, hbody⟩ := h
  obtain ⟨g, hg, rfl⟩ := Option.map_eq_some_iff.1 hf
  obtain ⟨rfl, rfl⟩ := flush_eq_some hg
  refine ⟨rfl, g, content, rfl, ?_, hbody⟩
  rw [hout, List.reverse_cons, List.append_assoc]
  rfl

/-- What is read as a content has been written as it. -/
theorem pending_of_stringBody {half : Option Nat} {found : Option (List Char)}
    {cs out rest : List Char} (h : stringBody half found cs = some (some out, rest)) :
    ∃ f content, found = some f ∧ out = f.reverse ++ content ∧ Pending rest half cs content := by
  fun_induction stringBody half found cs with
  | case1 | case3 | case5 | case7 => cases h
  | case2 half found tail =>
    obtain ⟨hout, rfl⟩ := Prod.mk.inj (Option.some.inj h)
    obtain ⟨f, hf, rfl⟩ := Option.map_eq_some_iff.1 hout
    obtain ⟨rfl, rfl⟩ := flush_eq_some hf
    exact ⟨f, [], rfl, (List.append_nil _).symm, [], rfl, .nil⟩
  | case4 half found a b c d tail u hu ih => exact pending_addUnit hu (ih h)
  | case6 half found c tail hunit e he ih =>
    obtain ⟨rfl, f, content, hf, hout, body, rfl, hbody⟩ := pending_flush (ih h)
    exact ⟨f, e :: content, hf, hout, _, rfl, .simple he hbody⟩
  | case8 half found c tail hquote hunit hslash hcontrol ih =>
    obtain ⟨rfl, f, content, hf, hout, body, rfl, hbody⟩ := pending_flush (ih h)
    -- A backslash would be an escape, since there is something behind it.
    have hescape : c ≠ '\\' := fun hc => by
      cases htail : body ++ '"' :: rest with
      | nil => simp at htail
      | cons d tail => exact hslash d tail hc htail
    exact ⟨f, c :: content, hf, hout, _, rfl, .plain hquote hescape hcontrol hbody⟩

theorem stringBody_simple {c e : Char} (h : simpleEscape? c = some e) (found rest : List Char) :
    stringBody none (some found) ('\\' :: c :: rest) =
      stringBody none (some (e :: found)) rest := by
  unfold simpleEscape? at h
  split at h <;> cases h <;> rfl

theorem stringBody_unit {a b c d : Char} {u : Nat} (h : unit? a b c d = some u)
    (half : Option Nat) (found : Option (List Char)) (rest : List Char) :
    stringBody half found ('\\' :: 'u' :: a :: b :: c :: d :: rest) =
      stringBody (addUnit half found u).1 (addUnit half found u).2 rest := by
  rw [stringBody, h]

/-- What is written as a content is read as it. -/
theorem stringBody_of_unescapes {body content : List Char} (h : Unescapes body content)
    (found rest : List Char) : stringBody none (some found) (body ++ '"' :: rest) =
      some (some (found.reverse ++ content), rest) := by
  induction h generalizing found with
  | nil =>
    rw [List.append_nil]
    rfl
  | plain hquote hslash hcontrol _ ih =>
    rw [List.cons_append, stringBody_cons found _ hquote hslash hcontrol, ih, List.reverse_cons,
      List.append_assoc]
    rfl
  | simple escape _ ih =>
    rw [List.cons_append, List.cons_append, stringBody_simple escape, ih, List.reverse_cons,
      List.append_assoc]
    rfl
  | @unit a b c d u body content digits whole _ ih =>
    have hadd : addUnit none (some found) u = (none, some (Char.ofNat u :: found)) := by
      unfold addUnit
      rw [if_neg (by omega), if_neg (by omega)]
      rfl
    simp only [List.cons_append]
    rw [stringBody_unit digits, hadd, ih, List.reverse_cons, List.append_assoc]
    rfl
  | @pair a b c d a' b' c' d' high low body content digits first digits' second _ ih =>
    have hfirst : addUnit none (some found) high = (some high, some found) := by
      unfold addUnit
      rw [if_pos first]
      rfl
    have hsecond : addUnit (some high) (some found) low =
        (none, some (pairChar high low :: found)) := by
      unfold addUnit
      rw [if_neg (by omega), if_pos second]
      rfl
    simp only [List.cons_append]
    rw [stringBody_unit digits, hfirst, stringBody_unit digits', hsecond, ih, List.reverse_cons,
      List.append_assoc]
    rfl

/-- **What the characters of a string stand for.** A string is read as a content exactly if its
characters up to the closing quote stand for it. -/
theorem stringBody_eq_some_iff {cs content rest : List Char} :
    stringBody none (some []) cs = some (some content, rest) ↔
      ∃ body, cs = body ++ '"' :: rest ∧ Unescapes body content := by
  constructor
  · intro h
    obtain ⟨f, content', hf, rfl, hbody⟩ := pending_of_stringBody h
    cases hf
    exact hbody
  · rintro ⟨body, rfl, hbody⟩
    exact stringBody_of_unescapes hbody [] rest

/-- **A byte that belongs to no character spoils what it is in**: what stands for it is no token,
and no escape goes on with it; a string that it is in may end, but has no content. -/
theorem stray_spoils :
    (∀ cs, one? (stray ++ cs) = none) ∧
    (∀ half found cs, stringBody half found ('\\' :: (stray ++ cs)) = none) ∧
    ∀ half found cs out rest, stringBody half found (stray ++ cs) ≠ some (some out, rest) := by
  refine ⟨fun cs => rfl, fun half found cs => rfl, fun half found cs out rest h => ?_⟩
  have hplain : ∀ tail, stringBody half found ('x' :: tail) =
      stringBody none ((flush half found).map ('x' :: ·)) tail := by
    intro tail
    rw [stringBody.eq_def]
    simp
  have hunit : unit? 'D' '8' '0' '0' = some 0xD800 := rfl
  -- The second half of a pair that may follow is too late for the first of the two halves.
  have hstray : stringBody half found (stray ++ cs) = stringBody (some 0xD800) none cs := by
    show stringBody half found ('x' :: '\\' :: 'u' :: 'D' :: '8' :: '0' :: '0' :: '\\' :: 'u' ::
      'D' :: '8' :: '0' :: '0' :: cs) = _
    rw [hplain, stringBody_unit hunit, stringBody_unit hunit]
    rfl
  rw [hstray] at h
  obtain ⟨f, content, hf, -⟩ := pending_of_stringBody h
  cases hf

/-! ### Texts of one string -/

/-- Only a quote begins a string. -/
theorem one?_eq_string {cs rest : List Char} {content : Option String}
    (h : one? cs = some (.string content, rest)) :
    ∃ body, cs = '"' :: body ∧
      ∃ found, stringBody none (some []) body = some (found, rest) ∧
        content = found.map String.ofList := by
  unfold one? at h
  split at h <;> simp only [Option.map_eq_some_iff, Option.some.injEq, Prod.mk.injEq,
    reduceCtorEq, false_and, and_false, exists_false] at h
  obtain ⟨⟨found, rest'⟩, hbody, hcontent, rfl⟩ := h
  exact ⟨_, rfl, found, hbody, (Token.string.inj hcontent).symm⟩

/-- The first token of a text stands behind its blanks. -/
theorem ofChars_eq (cs : List Char) :
    ofChars cs = match one? (cs.dropWhile isBlank) with
      | some (t, r) => t :: ofChars r
      | none => if (cs.dropWhile isBlank).isEmpty then [] else [.bad] := by
  rw [ofChars]
  split <;> rename_i hone <;> rw [hone]

/-- A text without tokens has nothing but blanks. -/
theorem ofChars_eq_nil_iff {cs : List Char} :
    ofChars cs = [] ↔ ∀ c ∈ cs, isBlank c = true := by
  rw [← List.dropWhile_eq_nil_iff, ofChars_eq]
  cases cs.dropWhile isBlank with
  | nil => simp [one?]
  | cons c rest => cases one? (c :: rest) <;> simp

theorem ofChars_append_blank {front : List Char} (h : ∀ c ∈ front, isBlank c = true)
    (cs : List Char) : ofChars (front ++ cs) = ofChars cs := by
  rw [ofChars_eq, List.dropWhile_append_of_pos h, ← ofChars_eq]

/-- A text is one string exactly if it is a literal of it. -/
theorem ofChars_eq_string_iff {text content : String} :
    ofChars text.toList = [.string (some content)] ↔ IsLiteral text content := by
  constructor
  · intro h
    rw [ofChars_eq] at h
    cases hone : one? (text.toList.dropWhile isBlank) with
    | none =>
      rw [hone] at h
      dsimp only at h
      split at h <;> cases h
    | some found =>
      obtain ⟨t, back⟩ := found
      rw [hone] at h
      obtain ⟨rfl, hback⟩ := List.cons.inj h
      obtain ⟨rest, hrest, found, hbody, hcontent⟩ := one?_eq_string hone
      obtain ⟨cs, rfl, hcs⟩ := Option.map_eq_some_iff.1 hcontent.symm
      obtain ⟨body, rfl, hunescapes⟩ := stringBody_eq_some_iff.1 hbody
      refine ⟨text.toList.takeWhile isBlank, body, back, ?_, ?_, ofChars_eq_nil_iff.1 hback, ?_⟩
      · rw [← hrest, List.takeWhile_append_dropWhile]
      · exact fun c hc => List.mem_takeWhile_imp hc
      · rw [← hcs, String.toList_ofList]
        exact hunescapes
  · rintro ⟨front, body, back, htext, hfront, hback, hbody⟩
    have hone : one? ('"' :: (body ++ '"' :: back)) = some (.string (some content), back) := by
      show (stringBody none (some []) (body ++ '"' :: back)).map _ = _
      rw [stringBody_of_unescapes hbody]
      simp
    rw [htext, ofChars_append_blank hfront, ofChars_cons rfl hone, ofChars_eq_nil_iff.2 hback]

end Token

namespace Document

/-- Whether a document is an array or an object. -/
def isContainer : Document → Bool
  | .array _ _ | .object _ _ => true
  | _ => false

theorem isContainer_breakOff {last : Document} {frames : List Frame}
    (h : last.isContainer = true ∨ frames ≠ []) : (breakOff last frames).isContainer = true := by
  fun_induction breakOff last frames with
  | case1 last => exact h.resolve_right fun hne => hne rfl
  | case2 last items frames ih => exact ih (.inl rfl)
  | case3 last members name frames ih => exact ih (.inl rfl)

/-- Whether what is due is part of an array or an object. -/
def Within : Due → List Frame → Prop
  | .separator last, frames => last.isContainer = true ∨ frames ≠ []
  | .value, frames => frames ≠ []
  | .colon, frames => frames ≠ []
  | _, _ => True

/-- What is begun as an array or an object is one. -/
theorem isContainer_read (ts : List Token) (due : Due) (frames : List Frame)
    (h : Within due frames) : (read ts due frames).1.isContainer = true := by
  fun_induction read ts due frames with
  | case1 => exact h.resolve_right fun hne => hne rfl
  -- The text breaks off in an array or an object, or in one of their values.
  | case2 | case3 | case4 | case5 | case6 | case11 | case14 | case16 | case19 | case29 =>
    exact isContainer_breakOff (.inl rfl)
  | case7 | case8 | case21 | case36 => exact isContainer_breakOff (.inr h)
  -- One of them ends.
  | case10 | case13 | case18 | case22 => rename_i ih; exact ih (.inl rfl)
  -- One of them begins.
  | case12 | case23 | case24 | case30 | case31 => rename_i ih; exact ih trivial
  -- A name, a comma or a value goes by.
  | case9 | case15 | case17 => rename_i ih; exact ih (List.cons_ne_nil _ _)
  | case25 | case26 | case27 | case28 => rename_i ih; exact ih (.inr (List.cons_ne_nil _ _))
  | case20 => rename_i ih; exact ih h
  | case32 | case33 | case34 | case35 => rename_i ih; exact ih (.inr h)

theorem read_separator (ts : List Token) (last : Document) :
    read ts (.separator last) [] = (last, ts) := by
  cases ts <;> rfl

/-- Only one string alone is read as a string, to the end of the text. -/
theorem read_eq_string_iff {ts : List Token} {content : Option String} :
    read ts .value [] = (.string content, []) ↔ ts = [.string content] := by
  constructor
  · intro h
    -- What begins with a bracket is an array or an object.
    have hcontainer : ∀ ts due, Within due [] → read ts due [] ≠ (.string content, []) := by
      intro ts due hdue heq
      have := isContainer_read ts due [] hdue
      rw [heq] at this
      cases this
    cases ts with
    | nil => cases h
    | cons t ts =>
      cases t with
      | openArray => exact absurd h (hcontainer ts .item trivial)
      | openObject => exact absurd h (hcontainer ts .name trivial)
      | string s =>
        change read ts (.separator (.string s)) [] = _ at h
        rw [read_separator] at h
        cases h
        rfl
      | null | bool | numeral =>
        change read ts (.separator _) [] = _ at h
        rw [read_separator] at h
        cases h
      | _ => cases h
  · rintro rfl
    rfl

end Document

/-- **The texts of strings.** A text is read as a string, to its end, exactly if it is a literal of
that string. -/
theorem ofText_eq_string_iff {text content : String} :
    Document.ofText text = (.string (some content), true) ↔ IsLiteral text content := by
  rw [← Token.ofChars_eq_string_iff, ← Document.read_eq_string_iff, Document.ofText]
  cases Document.read (Token.ofChars text.toList) .value [] with
  | mk tree behind => simp

end Json
end Collectors
