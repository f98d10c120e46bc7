import Collectors.Proofs.Numerals

/-!
# The tokens of a written value

`Json.tokens` are the tokens that a value is written as, by the same recursion as `Json.emit`.
`Json.ofChars_emit` says that a written value is cut into exactly these tokens, whatever it is and
whatever stands behind it that does not go on with a number.
-/

namespace Collectors
namespace Json

namespace Token

/-! ### Strings -/

theorem stringBody_cons {c : Char} (found rest : List Char) (hquote : c ≠ '"')
    (hslash : c ≠ '\\') (hcontrol : ¬ c.toNat < 32) :
    stringBody none (some found) (c :: rest) = stringBody none (some (c :: found)) rest := by
  rw [stringBody.eq_def]
  simp [hslash, hcontrol, flush]

/-- What is written for a character is read as the character. -/
theorem stringBody_escape (c : Char) (found rest : List Char) :
    stringBody none (some found) (escape c ++ rest) =
      stringBody none (some (c :: found)) rest := by
  unfold escape
  by_cases hquote : c = '"'
  · subst hquote; rfl
  rw [if_neg hquote]
  by_cases hslash : c = '\\'
  · subst hslash; rfl
  rw [if_neg hslash]
  by_cases hback : c = '\x08'
  · subst hback; rfl
  rw [if_neg hback]
  by_cases hfeed : c = '\x0c'
  · subst hfeed; rfl
  rw [if_neg hfeed]
  by_cases hline : c = '\n'
  · subst hline; rfl
  rw [if_neg hline]
  by_cases hreturn : c = '\r'
  · subst hreturn; rfl
  rw [if_neg hreturn]
  by_cases htab : c = '\t'
  · subst htab; rfl
  rw [if_neg htab]
  by_cases hcontrol : c.toNat < 32
  · rw [if_pos hcontrol]
    have hunit : unit? '0' '0' (Hex.digit (c.toNat / 16)) (Hex.digit (c.toNat % 16)) =
        some c.toNat := by
      simp only [unit?, show Hex.value? '0' = some 0 from rfl,
        Hex.value?_digit (show c.toNat / 16 < 16 by omega),
        Hex.value?_digit (show c.toNat % 16 < 16 by omega), bind, Option.bind_some, pure]
      rw [Option.some.injEq]
      omega
    have hadd : addUnit none (some found) c.toNat = (none, some (c :: found)) := by
      unfold addUnit
      rw [if_neg (by omega), if_neg (by omega), Char.ofNat_toNat]
      rfl
    -- A control character without a short form is no half of a pair.
    show stringBody none (some found) ('\\' :: 'u' :: '0' :: '0' :: Hex.digit (c.toNat / 16) ::
      Hex.digit (c.toNat % 16) :: rest) = _
    rw [stringBody, hunit]
    simp only [hadd]
  · rw [if_neg hcontrol]
    exact stringBody_cons found rest hquote hslash hcontrol

theorem stringBody_flatMap (cs found rest : List Char) :
    stringBody none (some found) (cs.flatMap escape ++ '"' :: rest) =
      some (some (found.reverse ++ cs), rest) := by
  induction cs generalizing found with
  | nil =>
    rw [List.flatMap_nil, List.nil_append, List.append_nil]
    rfl
  | cons c cs ih =>
    rw [List.flatMap_cons, List.append_assoc, stringBody_escape, ih, List.reverse_cons,
      List.append_assoc]
    rfl

/-- A written string is read as the string. -/
theorem one?_emitString (s : String) (rest : List Char) :
    one? (emitString s rest) = some (.string (some s), rest) := by
  show (stringBody none (some []) (s.toList.flatMap escape ++ '"' :: rest)).map _ = _
  rw [stringBody_flatMap]
  simp

/-! ### Tokens one after another -/

theorem ofChars_nil : ofChars [] = [] := by
  rw [ofChars]
  rfl

/-- What is read as a token at the front of a text is its first token. -/
theorem ofChars_cons {c : Char} {rest r : List Char} {t : Token} (hc : isBlank c = false)
    (h : one? (c :: rest) = some (t, r)) : ofChars (c :: rest) = t :: ofChars r := by
  have hdrop : (c :: rest).dropWhile isBlank = c :: rest :=
    List.dropWhile_cons_of_neg (by rw [hc]; exact Bool.false_ne_true)
  rw [ofChars]
  split
  · rename_i heq
    rw [hdrop, h] at heq
    obtain ⟨rfl, rfl⟩ := Prod.mk.inj (Option.some.inj heq)
    rfl
  · rename_i heq
    rw [hdrop, h] at heq
    cases heq

theorem ofChars_emitString (s : String) (rest : List Char) :
    ofChars (emitString s rest) = .string (some s) :: ofChars rest :=
  ofChars_cons rfl (one?_emitString s rest)

/-- No token starts with a blank. -/
theorem isBlank_of_one? {c : Char} {rest r : List Char} {t : Token}
    (h : one? (c :: rest) = some (t, r)) : isBlank c = false := by
  by_contra hc
  rw [Bool.not_eq_false] at hc
  simp only [isBlank, Bool.or_eq_true, decide_eq_true_eq] at hc
  rcases hc with ((rfl | rfl) | rfl) | rfl <;> cases h

theorem ofChars_text (n : Number) {rest : List Char} (h : Delimited rest) :
    ofChars (n.text ++ rest) = .numeral n.numeral :: ofChars rest := by
  have hone := n.spells_text rest h
  cases htext : n.text ++ rest with
  | nil => rw [htext] at hone; cases hone
  | cons c ds =>
    rw [htext] at hone
    exact ofChars_cons (isBlank_of_one? hone) hone

end Token

/-! ### Values -/

open Token

mutual

/-- The tokens that a value is written as, in front of some more. -/
def tokens : Json → List Token → List Token
  | .null, rest => .null :: rest
  | .bool b, rest => .bool b :: rest
  | .number n, rest => .numeral n.numeral :: rest
  | .string s, rest => .string (some s) :: rest
  | .array [], rest => .openArray :: .closeArray :: rest
  | .array (item :: items), rest =>
    .openArray :: item.tokens (tokensItems items (.closeArray :: rest))
  | .object [], rest => .openObject :: .closeObject :: rest
  | .object ((name, value) :: members), rest =>
    .openObject :: .string (some name) :: .colon ::
      value.tokens (tokensMembers members (.closeObject :: rest))

/-- The tokens of items after the first. -/
def tokensItems : List Json → List Token → List Token
  | [], rest => rest
  | item :: items, rest => .comma :: item.tokens (tokensItems items rest)

/-- The tokens of members after the first. -/
def tokensMembers : List (String × Json) → List Token → List Token
  | [], rest => rest
  | (name, value) :: members, rest =>
    .comma :: .string (some name) :: .colon :: value.tokens (tokensMembers members rest)

end

theorem delimited_comma (rest : List Char) : Delimited (',' :: rest) :=
  delimited_cons rest (by decide)

theorem delimited_closeArray (rest : List Char) : Delimited (']' :: rest) :=
  delimited_cons rest (by decide)

theorem delimited_closeObject (rest : List Char) : Delimited ('}' :: rest) :=
  delimited_cons rest (by decide)

theorem delimited_emitItems (items : List Json) {rest : List Char} (h : Delimited rest) :
    Delimited (emitItems items rest) := by
  cases items with
  | nil => exact h
  | cons item items => exact delimited_comma _

theorem delimited_emitMembers (members : List (String × Json)) {rest : List Char}
    (h : Delimited rest) : Delimited (emitMembers members rest) := by
  cases members with
  | nil => exact h
  | cons member members => exact delimited_comma _

mutual

/-- **A written value is cut into its tokens.** -/
theorem ofChars_emit : (v : Json) → {rest : List Char} → Delimited rest →
    ofChars (v.emit rest) = v.tokens (ofChars rest)
  | .null, rest, _ => ofChars_cons rfl rfl
  | .bool true, rest, _ => ofChars_cons rfl rfl
  | .bool false, rest, _ => ofChars_cons rfl rfl
  | .number n, rest, h => ofChars_text n h
  | .string s, rest, _ => ofChars_emitString s rest
  | .array [], rest, _ => by
    rw [emit, ofChars_cons rfl rfl, ofChars_cons rfl rfl, tokens]
  | .array (item :: items), rest, _ => by
    have hclose := delimited_closeArray rest
    rw [emit, ofChars_cons rfl rfl, ofChars_emit item (delimited_emitItems items hclose),
      ofChars_emitItems items hclose, ofChars_cons rfl rfl, tokens]
  | .object [], rest, _ => by
    rw [emit, ofChars_cons rfl rfl, ofChars_cons rfl rfl, tokens]
  | .object ((name, value) :: members), rest, _ => by
    have hclose := delimited_closeObject rest
    rw [emit, ofChars_cons rfl rfl, ofChars_emitString, ofChars_cons rfl rfl,
      ofChars_emit value (delimited_emitMembers members hclose),
      ofChars_emitMembers members hclose, ofChars_cons rfl rfl, tokens]

theorem ofChars_emitItems : (items : List Json) → {rest : List Char} → Delimited rest →
    ofChars (emitItems items rest) = tokensItems items (ofChars rest)
  | [], rest, _ => by rw [emitItems, tokensItems]
  | item :: items, rest, h => by
    rw [emitItems, ofChars_cons rfl rfl, ofChars_emit item (delimited_emitItems items h),
      ofChars_emitItems items h, tokensItems]

theorem ofChars_emitMembers : (members : List (String × Json)) → {rest : List Char} →
    Delimited rest → ofChars (emitMembers members rest) = tokensMembers members (ofChars rest)
  | [], rest, _ => by rw [emitMembers, tokensMembers]
  | (name, value) :: members, rest, h => by
    rw [emitMembers, ofChars_cons rfl rfl, ofChars_emitString, ofChars_cons rfl rfl,
      ofChars_emit value (delimited_emitMembers members h), ofChars_emitMembers members h,
      tokensMembers]

end

end Json
end Collectors
