import Collectors.Json.Printer
import Collectors.Yaml.Token

/-!
# Tokens on one line of a YAML text

Between brackets on one line a text is scanned without regard to its columns. The layout is calm
there (`Yaml.Layout.Calm`): no block collection is open, and nothing fails for want of a key. So one
token leads to the next (`Yaml.Token.Leads`): the signs of collections, a string as JSON writes it,
a name with the colon behind it, and a word.

A name is a key only if the colon stands near (`Yaml.Token.leads_name`); a word ends at the sign
behind it (`Yaml.Token.leads_word`).
-/

namespace Collectors

/-- Whether a character is printable ASCII. -/
def isPrintable (c : Char) : Bool := ' ' ≤ c && c ≤ '~'

/-- Two characters are different if one of them is of some kind and the other is not. -/
theorem ne_of_kind {kind : Char → Bool} {c d : Char} (hc : kind c = true) (hd : kind d = false) :
    c ≠ d := by
  rintro rfl
  rw [hc] at hd
  cases hd

namespace Yaml

/-! ### Places on one line -/

namespace Position

theorem along_along (p : Position) (m n : Nat) : (p.along m).along n = p.along (m + n) := by
  simp only [along, Nat.add_assoc]

theorem after_of_not_isBreak {c : Char} (h : isBreak c = false) (p : Position) :
    p.after c = p.along 1 := by
  rw [after, h]
  rfl

end Position

/-! ### Scalars -/

namespace Scalar

theorem isPrintable_bounds {c : Char} (h : isPrintable c = true) :
    32 ≤ c.toNat ∧ c.toNat ≤ 126 := by
  simp only [isPrintable, Bool.and_eq_true, decide_eq_true_eq] at h
  exact h

theorem isBreak_of_isPrintable {c : Char} (h : isPrintable c = true) : isBreak c = false := by
  obtain ⟨hlow, hhigh⟩ := isPrintable_bounds h
  refine Bool.eq_false_iff.2 fun hbreak => ?_
  simp only [isBreak, Bool.or_eq_true, decide_eq_true_eq] at hbreak
  rcases hbreak with (rfl | rfl) | rfl <;> simp at hlow hhigh

/-- A printable character is written as it is, or behind a backslash. -/
theorem escape_cases {c : Char} (h : isPrintable c = true) :
    (c = '"' ∨ c = '\\') ∧ Json.escape c = ['\\', c] ∨
      c ≠ '"' ∧ c ≠ '\\' ∧ Json.escape c = [c] := by
  obtain ⟨hlow, -⟩ := isPrintable_bounds h
  by_cases hquote : c = '"'
  · subst hquote
    exact .inl ⟨.inl rfl, rfl⟩
  by_cases hslash : c = '\\'
  · subst hslash
    exact .inl ⟨.inr rfl, rfl⟩
  refine .inr ⟨hquote, hslash, ?_⟩
  have hne : ∀ d : Char, d.toNat < 32 → c ≠ d := by
    rintro d hd rfl
    omega
  rw [Json.escape, if_neg hquote, if_neg hslash, if_neg (hne _ (by decide)),
    if_neg (hne _ (by decide)), if_neg (hne _ (by decide)), if_neg (hne _ (by decide)),
    if_neg (hne _ (by decide)), if_neg (by omega)]

/-- What is written for a printable character is read as the character, a blank as one more blank
of the gap. -/
theorem doubleQuoted_escape {c : Char} (h : isPrintable c = true) (text bs : List Char)
    (p : Position) (rest : List Char) : ∃ text' bs', bs' ++ text' = c :: (bs ++ text) ∧
      doubleQuoted text (.blanks bs) p (Json.escape c ++ rest) =
        doubleQuoted text' (.blanks bs') (p.along (Json.escape c).length) rest := by
  have hbreak := isBreak_of_isPrintable h
  rcases escape_cases h with ⟨hc, hescape⟩ | ⟨hquote, hslash, hescape⟩ <;> rw [hescape]
  · refine ⟨c :: (bs ++ text), [], rfl, ?_⟩
    rcases hc with rfl | rfl <;> rfl
  · have hlast : doubleQuoted text (.blanks bs) p (c :: rest) =
        if isBlank c then doubleQuoted text (.blanks (c :: bs)) (p.along 1) rest
        else doubleQuoted (c :: (bs ++ text)) (.blanks []) (p.along 1) rest := by
      rw [doubleQuoted.eq_def]
      simp [hslash, hbreak, Position.after_of_not_isBreak, Gap.add, Gap.onto, Gap.none]
    rw [List.singleton_append, hlast]
    split
    · exact ⟨text, c :: bs, rfl, rfl⟩
    · exact ⟨c :: (bs ++ text), [], rfl, rfl⟩

/-- **A written string is read as the string.** -/
theorem doubleQuoted_flatMap {cs : List Char} (h : ∀ c ∈ cs, isPrintable c = true)
    (text bs : List Char) (p : Position) (rest : List Char) :
    doubleQuoted text (.blanks bs) p (cs.flatMap Json.escape ++ '"' :: rest) =
      some { value := (bs ++ text).reverse ++ cs
             position := p.along ((cs.flatMap Json.escape).length + 1), rest } := by
  induction cs generalizing text bs p with
  | nil =>
    rw [List.append_nil]
    rfl
  | cons c cs ih =>
    rw [List.forall_mem_cons] at h
    obtain ⟨text', bs', htext, hstep⟩ := doubleQuoted_escape h.1 text bs p
      (cs.flatMap Json.escape ++ '"' :: rest)
    rw [List.flatMap_cons, List.append_assoc, hstep, ih h.2, htext, List.reverse_cons,
      List.append_assoc, Position.along_along, List.length_append, Nat.add_assoc]
    rfl

/-- Whether a text ends a plain scalar between brackets. -/
def Ends (cs : List Char) : Prop := ∃ c rest, cs = c :: rest ∧ c ∈ [',', ']', '}']

/-- A word is read to its end as a plain scalar. -/
theorem plain_word {cs : List Char} (h : ∀ c ∈ cs, isWordChar c = true) {rest : List Char}
    (hrest : Ends rest) (indent : Nat) (text : List Char) (p : Position) :
    plain true indent text .none p (cs ++ rest) =
      some { value := { text := text.reverse ++ cs, endsLine := false }
             position := p.along cs.length, rest } := by
  induction cs generalizing text p with
  | nil =>
    obtain ⟨c, rest, rfl, hc⟩ := hrest
    rw [List.nil_append, plain, List.append_nil]
    simp only [List.mem_cons, List.not_mem_nil, or_false] at hc
    rcases hc with rfl | rfl | rfl <;> rfl
  | cons c cs ih =>
    rw [List.forall_mem_cons] at h
    -- No character of a word is one of those that a plain scalar stops at.
    have hne : ∀ d, isWordChar d = false → c ≠ d := fun _ => ne_of_kind h.1
    have hblank : (isBlank c || isBreak c) = false := by
      simp [isBlank, isBreak, hne ' ' rfl, hne '\t' rfl, hne '\n' rfl, hne '\u2028' rfl,
        hne '\u2029' rfl]
    have hcolon : isMisplacedColon true (c :: (cs ++ rest)) = false := by
      unfold isMisplacedColon
      split
      · rename_i heq
        exact absurd (List.cons.inj heq).1 (hne ':' rfl)
      · rfl
    have hends : endsPlain true (c :: (cs ++ rest)) = false := by
      simp [endsPlain, hne ':' rfl, hne ',' rfl, hne '[' rfl, hne ']' rfl, hne '\x7b' rfl,
        hne '\x7d' rfl]
    have hbreak : isBreak c = false := (Bool.or_eq_false_iff.1 hblank).2
    rw [List.cons_append, plain, hblank, hcolon, hends, Position.after_of_not_isBreak hbreak]
    have hrest := ih h.2 (c :: text) (p.along 1)
    rw [List.reverse_cons, List.append_assoc, Position.along_along, Nat.add_comm] at hrest
    exact hrest

end Scalar

/-! ### Layouts without block collections -/

namespace Layout

/-- Whether no block collection is open, and there is a way on without a key at every
candidate. -/
structure Calm (s : Layout) : Prop where
  indents : s.indents = []
  candidate : ∀ c ∈ s.candidate, c.required = false
  outer : ∀ o ∈ s.outer, ∀ c ∈ o, c.required = false

/-- The layout without the candidates that are stale at a place. -/
def expired (p : Position) (s : Layout) : Layout :=
  { s with candidate := fresh p s.candidate, outer := s.outer.map (fresh p) }

variable {s : Layout} {p : Position}

theorem mem_of_mem_fresh {c : Candidate} {o : Option Candidate} (h : c ∈ fresh p o) : c ∈ o :=
  (Option.filter_eq_some_iff.1 h).1

theorem length_outer_expired (p : Position) (s : Layout) :
    (s.expired p).outer.length = s.outer.length := List.length_map ..

theorem isFlow_iff : s.isFlow = true ↔ 0 < s.outer.length := by
  rw [isFlow, Bool.not_eq_true', List.isEmpty_eq_false_iff, List.length_pos_iff]

theorem not_begins (hs : s.isFlow = true) (column : Nat) : s.begins column = false := by
  rw [begins, hs]
  rfl

namespace Calm

theorem expired (hs : s.Calm) (p : Position) : (s.expired p).Calm where
  indents := hs.indents
  candidate c hc := hs.candidate c (mem_of_mem_fresh hc)
  outer _ hmem c hc := by
    obtain ⟨o, ho, rfl⟩ := List.mem_map.1 hmem
    exact hs.outer o ho c (mem_of_mem_fresh hc)

theorem expire (hs : s.Calm) (p : Position) : s.expire p = some (s.expired p) := by
  refine if_neg fun h => ?_
  obtain ⟨o, ho, h⟩ := List.any_eq_true.1 h
  cases o with
  | none => cases h
  | some c =>
    have hrequired : c.required = false := by
      rcases List.mem_cons.1 ho with heq | ho
      · exact hs.candidate c heq.symm
      · exact hs.outer _ ho c rfl
    rw [Option.any_some, hrequired] at h
    cases h

theorem withdraw (hs : s.Calm) : s.withdraw = some { s with candidate := none } := by
  refine if_neg fun h => ?_
  cases hc : s.candidate with
  | none =>
    rw [hc] at h
    cases h
  | some c =>
    rw [hc, Option.any_some, hs.candidate c hc] at h
    cases h

theorem unroll (hs : s.Calm) (bound : Nat) : s.unroll bound = s := by
  unfold Layout.unroll
  split
  · rfl
  · obtain ⟨indents, candidate, outer, keyAllowed, tokens⟩ := s
    obtain rfl : indents = [] := hs.indents
    rfl

/-- Where a key may start, the place becomes the candidate. -/
theorem offer (hs : s.Calm) (p : Position) :
    ∃ o, s.offer p = some { s with candidate := o } ∧ (∀ c ∈ o, c.required = false) ∧
      (s.keyAllowed = true →
        o = some { place := s.tokens.length, position := p, required := false }) := by
  unfold Layout.offer
  split
  · refine ⟨some { place := s.tokens.length, position := p, required := false }, ?_, ?_,
      fun _ => rfl⟩
    · rw [hs.withdraw, Option.map_some]
      simp [hs.indents, isFlow]
    · intro c hc
      cases hc
      rfl
  · rename_i hkey
    exact ⟨s.candidate, rfl, hs.candidate, fun h => absurd h hkey⟩

end Calm

/-- The tokens of a layout in front of some more. -/
def ahead (s : Layout) (ts : List Token) : List Token := s.tokens.reverse ++ ts

theorem ahead_of_cons {s' : Layout} {t : Token} (h : s'.tokens = t :: s.tokens) (ts : List Token) :
    s'.ahead ts = s.ahead (t :: ts) := by
  rw [ahead, ahead, h, List.reverse_cons, List.append_assoc, List.singleton_append]

end Layout

/-! ### One token after another -/

namespace Token

open Layout

variable {s s' s'' : Layout} {p p' p'' : Position} {cs mid rest : List Char}
  {f g : List Token → List Token}

/-- Whether a character is neither skipped in front of a token nor starts a comment. -/
def isSolid (c : Char) : Bool := !isBreak c && !([' ', '\t', '\ufeff', '#'].contains c)

theorem skip_cons {c : Char} (hc : isSolid c = true) (flow allowed : Bool) (rest : List Char) :
    skip flow allowed false p (c :: rest) =
      { value := allowed, position := p, rest := c :: rest } := by
  simp only [isSolid, Bool.and_eq_true, Bool.not_eq_true', List.contains_eq_mem, List.mem_cons,
    List.not_mem_nil, or_false, decide_eq_false_iff_not, not_or] at hc
  obtain ⟨hbreak, hspace, htab, hmark, hhash⟩ := hc
  rw [skip]
  simp [hbreak, hspace, htab, hmark, hhash]

/-- What is read at a place where nothing is skipped is the next token. -/
theorem scanFrom_cons {c : Char} (hc : isSolid c = true) (hs : s.Calm) {found : Scanned Layout}
    (h : one? (s.expired p) p c rest = some found) :
    scanFrom s p (c :: rest) = scanFrom found.value found.position found.rest := by
  have hexpire : (s.allowKey s.keyAllowed).expire p = some (s.expired p) := hs.expire p
  have hskip := skip_cons (p := p) hc s.isFlow s.keyAllowed rest
  rw [scanFrom]
  simp only [hskip]
  split
  · rename_i heq
    cases hexpire.symm.trans heq
  · rename_i heq _
    rw [hskip] at heq
    cases heq
  · rename_i hrest hlayout
    rw [hskip] at hrest
    obtain ⟨rfl, rfl⟩ := List.cons.inj hrest
    obtain rfl := Option.some.inj (hexpire.symm.trans hlayout)
    split
    · rename_i heq
      rw [hskip, (hs.expired p).unroll, h] at heq
      cases heq
    · rename_i heq
      rw [hskip, (hs.expired p).unroll, h] at heq
      cases heq
      rfl

theorem scanFrom_nil (hs : s.Calm) (p : Position) : scanFrom s p [] = some (s.ahead []) := by
  have hexpire : (s.allowKey s.keyAllowed).expire p = some (s.expired p) := hs.expire p
  rw [scanFrom]
  simp only [skip]
  split
  · rename_i heq
    cases hexpire.symm.trans heq
  · rename_i hlayout
    obtain rfl := Option.some.inj (hexpire.symm.trans hlayout)
    rw [finish, (hs.expired p).unroll, (hs.expired p).withdraw, ahead, List.append_nil]
    rfl
  · rename_i heq _
    cases heq

/-- Whether scanning leads from a place to another one, where the layout is calm, and adds tokens:
`f` puts them in front of what comes behind them. -/
structure Leads (s : Layout) (p : Position) (cs : List Char) (f : List Token → List Token)
    (s' : Layout) (p' : Position) (rest : List Char) : Prop where
  scan : scanFrom s p cs = scanFrom s' p' rest
  calm : s'.Calm
  tokens : ∀ ts, s'.ahead ts = s.ahead (f ts)

theorem Leads.trans (h : Leads s p cs f s' p' mid) (h' : Leads s' p' mid g s'' p'' rest) :
    Leads s p cs (fun ts => f (g ts)) s'' p'' rest where
  scan := h.scan.trans h'.scan
  calm := h'.calm
  tokens ts := (h'.tokens ts).trans (h.tokens (g ts))

/-- A token that is added leads on. -/
theorem leads_cons {c : Char} {t : Token} (hc : isSolid c = true) (hs : s.Calm)
    (h : one? (s.expired p) p c cs = some { value := s', position := p', rest })
    (hcalm : s'.Calm) (htokens : s'.tokens = t :: s.tokens) :
    Leads s p (c :: cs) (t :: ·) s' p' rest where
  scan := scanFrom_cons hc hs h
  calm := hcalm
  tokens := ahead_of_cons htokens

/-- A line that marks a document starts with three marks. -/
theorem eq_of_startsMarker {mark : Char} (h : startsMarker mark cs = true) :
    ∃ rest, cs = mark :: mark :: mark :: rest := by
  unfold startsMarker at h
  split at h
  · simp only [Bool.and_eq_true, decide_eq_true_eq] at h
    obtain ⟨⟨⟨rfl, rfl⟩, rfl⟩, -⟩ := h
    exact ⟨_, rfl⟩
  · cases h

theorem startsMarker_cons {mark c : Char} (h : c ≠ mark) (rest : List Char) :
    startsMarker mark (c :: rest) = false := by
  refine Bool.eq_false_iff.2 fun hmarker => ?_
  obtain ⟨rest', heq⟩ := eq_of_startsMarker hmarker
  exact h (List.cons.inj heq).1

/-! ### Signs -/

theorem leads_open {c : Char} {t : Token}
    (h : c = '[' ∧ t = .openSequence ∨ c = '{' ∧ t = .openMapping) (hs : s.Calm) (p : Position)
    (rest : List Char) : ∃ s', Leads s p (c :: rest) (t :: ·) s' (p.along 1) rest ∧
      s'.keyAllowed = true ∧ s'.outer.length = s.outer.length + 1 := by
  obtain ⟨o, hoffer, ho, -⟩ := (hs.expired p).offer p
  have hone : one? (s.expired p) p c rest = sign p rest ((s.expired p).openBracket t p) := by
    rcases h with ⟨rfl, rfl⟩ | ⟨rfl, rfl⟩ <;> simp [one?, startsMarker_cons]
  have hc : isSolid c = true := by
    rcases h with ⟨rfl, -⟩ | ⟨rfl, -⟩ <;> rfl
  rw [openBracket, hoffer] at hone
  refine ⟨_, leads_cons hc hs hone ⟨hs.indents, nofun, ?_⟩ rfl, rfl, ?_⟩
  · exact List.forall_mem_cons.2 ⟨ho, (hs.expired p).outer⟩
  · exact congrArg (· + 1) (length_outer_expired p s)

theorem leads_close {c : Char} {t : Token} {n : Nat}
    (h : c = ']' ∧ t = .closeSequence ∨ c = '}' ∧ t = .closeMapping) (hs : s.Calm)
    (hlength : s.outer.length = n + 1) (p : Position) (rest : List Char) :
    ∃ s', Leads s p (c :: rest) (t :: ·) s' (p.along 1) rest ∧ s'.outer.length = n := by
  have hone : one? (s.expired p) p c rest = sign p rest ((s.expired p).closeBracket t) := by
    rcases h with ⟨rfl, rfl⟩ | ⟨rfl, rfl⟩ <;> simp [one?, startsMarker_cons]
  have hc : isSolid c = true := by
    rcases h with ⟨rfl, -⟩ | ⟨rfl, -⟩ <;> rfl
  have houter := (hs.expired p).outer
  rw [← length_outer_expired p] at hlength
  rw [closeBracket, (hs.expired p).withdraw, Option.map_some] at hone
  cases hcons : (s.expired p).outer with
  | nil =>
    rw [hcons] at hlength
    cases hlength
  | cons o outer =>
    rw [hcons] at hlength houter
    rw [List.forall_mem_cons] at houter
    simp only [hcons] at hone
    exact ⟨_, leads_cons hc hs hone ⟨hs.indents, houter.1, houter.2⟩ rfl,
      Nat.succ.inj hlength⟩

theorem leads_comma (hs : s.Calm) (p : Position) (rest : List Char) :
    ∃ s', Leads s p (',' :: rest) (.comma :: ·) s' (p.along 1) rest ∧ s'.keyAllowed = true ∧
      s'.outer.length = s.outer.length := by
  have hone : one? (s.expired p) p ',' rest = sign p rest (s.expired p).comma := by
    simp [one?, startsMarker_cons]
  rw [Layout.comma, (hs.expired p).withdraw] at hone
  exact ⟨_, leads_cons rfl hs hone ⟨hs.indents, nofun, (hs.expired p).outer⟩ rfl, rfl,
    length_outer_expired p s⟩

/-! ### Scalars -/

/-- A token with its content is added, and becomes a candidate where a key may start. -/
theorem content_expired (hs : s.Calm) (p : Position) (t : Token) :
    ∃ o, (s.expired p).content p t =
        some { s.expired p with candidate := o, keyAllowed := false, tokens := t :: s.tokens } ∧
      (∀ c ∈ o, c.required = false) ∧ (s.keyAllowed = true →
        o = some { place := s.tokens.length, position := p, required := false }) := by
  obtain ⟨o, hoffer, ho, hkey⟩ := (hs.expired p).offer p
  exact ⟨o, by rw [content, hoffer]; rfl, ho, hkey⟩

/-- A written string leads on; where a key may start, its place is the candidate. -/
theorem leads_string {text : String} (htext : ∀ c ∈ text.toList, isPrintable c = true)
    (hs : s.Calm) (p : Position) (rest : List Char) :
    ∃ s', Leads s p (Json.emitString text rest)
        (.scalar { text := text.toList, style := .doubleQuoted } :: ·) s'
        (p.along ((text.toList.flatMap Json.escape).length + 2)) rest ∧
      s'.outer.length = s.outer.length ∧
      s'.tokens = .scalar { text := text.toList, style := .doubleQuoted } :: s.tokens ∧
      (s.keyAllowed = true → s'.candidate =
        some { place := s.tokens.length, position := p, required := false }) := by
  obtain ⟨o, hcontent, ho, hkey⟩ := content_expired hs p
    (.scalar { text := text.toList, style := .doubleQuoted })
  have hread := Scalar.doubleQuoted_flatMap htext [] [] (p.along 1) rest
  rw [Position.along_along, Nat.add_comm 1] at hread
  have hone : one? (s.expired p) p '"' (text.toList.flatMap Json.escape ++ '"' :: rest) =
      withContent (Scalar.doubleQuoted [] .none (p.along 1)
        (text.toList.flatMap Json.escape ++ '"' :: rest)) fun text =>
        (s.expired p).content p (.scalar { text, style := .doubleQuoted }) := by
    simp [one?, startsMarker_cons]
  have hnone : Scalar.doubleQuoted [] .none (p.along 1)
      (text.toList.flatMap Json.escape ++ '"' :: rest) = _ := hread
  rw [hnone, withContent] at hone
  simp only [List.append_nil, List.reverse_nil, List.nil_append, hcontent, Option.map_some] at hone
  exact ⟨_, leads_cons rfl hs hone ⟨hs.indents, ho, (hs.expired p).outer⟩ rfl,
    length_outer_expired p s, rfl, hkey⟩

/-- A name leads behind its colon, if it is short; the key stands in front of it. -/
theorem leads_name {name : String} (hname : ∀ c ∈ name.toList, isPrintable c = true)
    (hshort : (name.toList.flatMap Json.escape).length + 2 ≤ 1024) (hs : s.Calm)
    (hflow : 0 < s.outer.length) (hkey : s.keyAllowed = true) (p : Position) (rest : List Char) :
    ∃ s' p', Leads s p (Json.emitString name (':' :: rest))
        (fun ts => .key :: .scalar { text := name.toList, style := .doubleQuoted } ::
          .value :: ts) s' p' rest ∧
      s'.outer.length = s.outer.length := by
  obtain ⟨s₁, h₁, hlength, htokens, hcandidate⟩ := leads_string hname hs p (':' :: rest)
  have hcandidate := hcandidate hkey
  generalize hq : p.along ((name.toList.flatMap Json.escape).length + 2) = q at h₁
  have hflow₁ : (s₁.expired q).isFlow = true :=
    isFlow_iff.2 (by rw [length_outer_expired, hlength]; exact hflow)
  -- The place of the name is still a candidate when the colon comes.
  have hfresh : (s₁.expired q).candidate =
      some { place := s.tokens.length, position := p, required := false } := by
    have hstale : ¬(p.line < q.line ∨ p.index + 1024 < q.index) := by
      rw [← hq, Position.along]
      simp only
      omega
    rw [expired, hcandidate, fresh, Option.filter_some, if_pos]
    simpa [Candidate.isStale] using hstale
  have hone : one? (s₁.expired q) q ':' rest = sign q rest ((s₁.expired q).value q) := by
    simp [one?, startsMarker_cons, hflow₁]
  have htokens₁ : (s₁.expired q).tokens =
      .scalar { text := name.toList, style := .doubleQuoted } :: s.tokens := htokens
  simp only [Layout.value, hfresh, confirm, not_begins hflow₁, insertAt, htokens₁, push] at hone
  refine ⟨_, _, ⟨h₁.scan.trans (scanFrom_cons rfl h₁.calm hone),
    ⟨h₁.calm.indents, nofun, (h₁.calm.expired q).outer⟩, fun ts => ?_⟩, ?_⟩
  · simp [ahead]
  · exact (length_outer_expired q s₁).trans hlength

/-- Whether a text starts like a word: with a letter or a digit, perhaps behind a minus sign. -/
inductive StartsWord : List Char → Prop where
  | plain {c : Char} (h : c.isAlphanum = true) (cs : List Char) : StartsWord (c :: cs)
  | minus {c : Char} (h : c.isDigit = true) (cs : List Char) : StartsWord ('-' :: c :: cs)

theorem StartsWord.isSolid {c : Char} (h : StartsWord (c :: cs)) : isSolid c = true := by
  cases h with
  | plain h =>
    have hne : ∀ d : Char, d.isAlphanum = false → c ≠ d := fun _ => ne_of_kind h
    simp [Token.isSolid, isBreak, hne '\n' rfl, hne '\u2028' rfl, hne '\u2029' rfl, hne ' ' rfl,
      hne '\t' rfl, hne '\ufeff' rfl, hne '#' rfl]
  | minus => rfl

theorem StartsWord.append (h : StartsWord cs) (rest : List Char) : StartsWord (cs ++ rest) := by
  cases h with
  | plain h => exact .plain h _
  | minus h => exact .minus h _

/-- What starts like a word is read as a plain scalar between brackets. -/
theorem one?_word {c : Char} (h : StartsWord (c :: cs)) (hflow : s.isFlow = true) (p : Position) :
    one? s p c cs =
      withContent (Scalar.plain true s.least [c] .none (p.along 1) cs) fun plain =>
        (s.content p (.scalar { text := plain.text, style := .plain })).map
          fun s => if plain.endsLine then s.allowKey true else s := by
  cases h with
  | plain h =>
    have hnone : ("\t-?:,[]\x7b\x7d#&*!|>'\"%@\x60.".toList.all fun d => !d.isAlphanum) = true :=
      rfl
    have hne : ∀ d ∈ "\t-?:,[]\x7b\x7d#&*!|>'\"%@\x60.".toList, c ≠ d := by
      rintro d hd rfl
      simpa [h] using List.all_eq_true.1 hnone c hd
    simp only [String.reduceToList, List.mem_cons, List.not_mem_nil, or_false, ne_eq,
      forall_eq_or_imp, forall_eq] at hne
    simp [one?, startsMarker_cons, startsPlain, hflow, hne]
  | @minus d hd cs =>
    have hne : ∀ e : Char, e.isDigit = false → d ≠ e := fun _ => ne_of_kind hd
    have hmarker : startsMarker '-' ('-' :: d :: cs) = false := by
      refine Bool.eq_false_iff.2 fun hmarker => ?_
      obtain ⟨rest', heq⟩ := eq_of_startsMarker hmarker
      exact hne '-' rfl (List.cons.inj (List.cons.inj heq).2).1
    have hblank : startsBlank (d :: cs) = false := by
      simp [startsBlank, isBlank, isBreak, hne ' ' rfl, hne '\t' rfl, hne '\n' rfl,
        hne '\u2028' rfl, hne '\u2029' rfl]
    simp [one?, hmarker, startsMarker_cons, startsPlain, hflow, hblank]

/-- A word leads behind it. -/
theorem leads_word (word : List Char) (hstart : StartsWord word)
    (hword : ∀ c ∈ word, isWordChar c = true) (hrest : Scalar.Ends rest) (hs : s.Calm)
    (hflow : 0 < s.outer.length) (p : Position) :
    ∃ s' p', Leads s p (word ++ rest) (.scalar { text := word, style := .plain } :: ·) s' p' rest ∧
      s'.outer.length = s.outer.length := by
  cases word with
  | nil => cases hstart
  | cons c word =>
    rw [List.forall_mem_cons] at hword
    obtain ⟨o, hcontent, ho, -⟩ :=
      content_expired hs p (.scalar { text := c :: word, style := .plain })
    have hflow' : (s.expired p).isFlow = true :=
      isFlow_iff.2 (by rw [length_outer_expired]; exact hflow)
    have hread := Scalar.plain_word hword.2 hrest (s.expired p).least [c] (p.along 1)
    have happend : StartsWord (c :: (word ++ rest)) := hstart.append rest
    have hone := one?_word happend hflow' p
    rw [hread, withContent] at hone
    simp only [List.reverse_singleton, List.singleton_append, hcontent, Option.map_some,
      Bool.false_eq_true, if_false] at hone
    exact ⟨_, _, leads_cons hstart.isSolid hs hone ⟨hs.indents, ho, (hs.expired p).outer⟩ rfl,
      length_outer_expired p s⟩

end Token
end Yaml

end Collectors
