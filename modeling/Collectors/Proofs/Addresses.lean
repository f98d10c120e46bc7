import Mathlib.Data.List.Infix
import Mathlib.Data.List.TakeWhile
import Collectors.Address
import Collectors.Proofs.Texts

/-!
# What is left of an endpoint

`Address.Rest` says, without a function, what is left of an endpoint as people write it: no white
space around it, and then no slashes behind it. There is one such rest (`Address.rest_iff`), and
everything about an address is read off from it.

`Address.new_normal` says which base URL an address gets, how else the same address can be written,
when writing its base URL gives the address back, and that no two calls go to one URL. The base URL
is not always an endpoint for itself: the rest may end in white space that stood in front of a
slash, and nothing at all leaves a scheme whose own slashes are taken for slashes behind the
endpoint.
-/

namespace Collectors

/-! ### Trimming -/

section Trim

variable {α : Type} {p : α → Bool}

theorem dropWhile_eq_iff {cs text : List α} :
    cs.dropWhile p = text ↔
      (∃ front, cs = front ++ text ∧ ∀ c ∈ front, p c = true) ∧
        ∀ c ∈ text.head?, p c = false := by
  constructor
  · rintro rfl
    refine ⟨⟨cs.takeWhile p, List.takeWhile_append_dropWhile.symm,
      fun c hc => List.mem_takeWhile_imp hc⟩, fun c hc => ?_⟩
    have hnot := List.head?_dropWhile_not p cs
    rw [Option.mem_def.1 hc] at hnot
    exact hnot
  · rintro ⟨⟨front, rfl, hfront⟩, hhead⟩
    rw [List.dropWhile_append_of_pos hfront]
    cases text with
    | nil => rfl
    | cons c text => exact List.dropWhile_cons_of_neg (by simp [hhead c rfl])

end Trim

theorem trimEnd_eq_iff {p : Char → Bool} {cs text : List Char} :
    trimEnd p cs = text ↔
      (∃ back, cs = text ++ back ∧ ∀ c ∈ back, p c = true) ∧
        ∀ c ∈ text.getLast?, p c = false := by
  rw [trimEnd, List.reverse_eq_iff, dropWhile_eq_iff, List.head?_reverse]
  refine and_congr_left fun _ => ⟨?_, ?_⟩
  · rintro ⟨front, hcs, hfront⟩
    refine ⟨front.reverse, ?_, fun c hc => hfront c (List.mem_reverse.1 hc)⟩
    rw [List.reverse_eq_iff, List.reverse_append, List.reverse_reverse] at hcs
    exact hcs
  · rintro ⟨back, rfl, hback⟩
    exact ⟨back.reverse, List.reverse_append, fun c hc => hback c (List.mem_reverse.1 hc)⟩

/-- Whether `text` is `cs` without the white space around it. -/
structure Unblanked (cs text : List Char) : Prop where
  around : ∃ front back, cs = front ++ text ++ back ∧ (∀ c ∈ front, isBlank c = true) ∧
    ∀ c ∈ back, isBlank c = true
  head : ∀ c ∈ text.head?, isBlank c = false
  last : ∀ c ∈ text.getLast?, isBlank c = false

theorem trimBlank_eq_iff {cs text : List Char} : trimBlank cs = text ↔ Unblanked cs text := by
  rw [trimBlank, trimEnd_eq_iff]
  constructor
  · rintro ⟨⟨back, hdrop, hback⟩, hlast⟩
    obtain ⟨⟨front, hcs, hfront⟩, hhead⟩ := dropWhile_eq_iff.1 hdrop
    refine ⟨⟨front, back, by rw [hcs, List.append_assoc], hfront, hback⟩, fun c hc => ?_, hlast⟩
    refine hhead c ?_
    rw [List.head?_append, Option.mem_def.1 hc]
    rfl
  · rintro ⟨⟨front, back, rfl, hfront, hback⟩, hhead, hlast⟩
    rw [List.append_assoc, List.dropWhile_append_of_pos hfront]
    refine ⟨?_, hlast⟩
    cases text with
    | nil =>
      -- Nothing is left, so that the white space behind it is taken from the front.
      refine ⟨[], ?_, by simp⟩
      rw [List.nil_append, List.append_nil, List.dropWhile_eq_nil_iff]
      exact hback
    | cons c text =>
      exact ⟨back, List.dropWhile_cons_of_neg (by simp [hhead c rfl]), hback⟩

namespace Address

/-- Whether `rest` is `endpoint` without the white space around it, and then without the slashes
behind it. -/
def Rest (endpoint rest : List Char) : Prop :=
  ∃ n, Unblanked endpoint (rest ++ List.replicate n '/') ∧ rest.getLast? ≠ some '/'

theorem rest_iff {endpoint rest : List Char} :
    Rest endpoint rest ↔ rest = normalChars endpoint := by
  rw [eq_comm, normalChars, trimEnd_eq_iff, Rest]
  constructor
  · rintro ⟨n, hblank, hlast⟩
    refine ⟨⟨_, trimBlank_eq_iff.2 hblank, fun c hc => ?_⟩, fun c hc => ?_⟩
    · simp [List.eq_of_mem_replicate hc]
    · rw [Option.mem_def.1 hc] at hlast
      simpa using hlast
  · rintro ⟨⟨back, htrim, hback⟩, hlast⟩
    have hslashes : back = List.replicate back.length '/' :=
      List.eq_replicate_of_mem fun c hc => by simpa using hback c hc
    refine ⟨back.length, trimBlank_eq_iff.1 (hslashes ▸ htrim), fun hslash => ?_⟩
    simpa using hlast '/' hslash

/-- What is left of a text without white space in front of it is a front part of the text. -/
theorem Rest.front {text rest : List Char} (h : Rest text rest)
    (hhead : ∀ c ∈ text.head?, isBlank c = false) : rest <+: text := by
  obtain ⟨n, ⟨⟨front, back, htext, hfront, -⟩, -, -⟩, -⟩ := h
  cases front with
  | nil =>
    rw [htext, List.nil_append, List.append_assoc]
    exact List.prefix_append _ _
  | cons c front =>
    -- Such a text does not start with white space.
    have hblank := hhead c (by rw [htext]; rfl)
    rw [hfront c List.mem_cons_self] at hblank
    cases hblank

/-! ### Base URLs -/

/-- A rest behind a scheme: its own, or the one that is missing. -/
def withScheme (rest : List Char) : List Char :=
  if hasScheme rest then rest else "http://".toList ++ rest

theorem baseUrl_new (endpoint : String) (id : ProviderId) :
    (new endpoint id).baseUrl = String.ofList (withScheme (normalChars endpoint.toList)) := rfl

theorem new_eq_iff {endpoint endpoint' : String} {id : ProviderId} :
    new endpoint id = new endpoint' id ↔
      withScheme (normalChars endpoint.toList) = withScheme (normalChars endpoint'.toList) := by
  rw [← String.ofList_inj, ← baseUrl_new endpoint id, ← baseUrl_new endpoint' id]
  exact ⟨congrArg baseUrl, fun h => by rw [new, new]; exact congrArg (mk · id) h⟩

theorem hasScheme_iff {cs : List Char} :
    hasScheme cs = true ↔ "http://".toList <+: cs ∨ "https://".toList <+: cs := by
  rw [hasScheme, Bool.or_eq_true, List.isPrefixOf_iff_prefix, List.isPrefixOf_iff_prefix]

theorem hasScheme_withScheme (rest : List Char) : hasScheme (withScheme rest) = true := by
  unfold withScheme
  split
  · assumption
  · exact hasScheme_iff.2 (.inl (List.prefix_append _ _))

theorem head?_withScheme (rest : List Char) : (withScheme rest).head? = some 'h' := by
  rcases hasScheme_iff.1 (hasScheme_withScheme rest) with ⟨behind, h⟩ | ⟨behind, h⟩ <;>
  · rw [← h]
    rfl

theorem getLast?_withScheme {rest : List Char} (h : rest ≠ []) :
    (withScheme rest).getLast? = rest.getLast? := by
  unfold withScheme
  split
  · rfl
  · exact List.getLast?_append_of_ne_nil _ h

variable {endpoint : String} {rest : List Char}

/-- A rest that ends in no white space is left of everything that has white space around it and
slashes behind it. -/
theorem rest_written (hrest : Rest endpoint.toList rest) (hne : rest ≠ [])
    (hlast : ∀ c ∈ rest.getLast?, isBlank c = false) {front back : List Char}
    (hfront : ∀ c ∈ front, isBlank c = true) (hback : ∀ c ∈ back, isBlank c = true) (n : Nat) :
    Rest (front ++ rest ++ List.replicate n '/' ++ back) rest := by
  obtain ⟨m, hblank, hslash⟩ := hrest
  refine ⟨n, ⟨⟨front, back, by simp only [List.append_assoc], hfront, hback⟩, fun c hc => ?_,
    fun c hc => ?_⟩, hslash⟩
  · refine hblank.head c ?_
    rw [List.head?_append_of_ne_nil _ hne] at hc ⊢
    exact hc
  · cases n with
    | zero => exact hlast c (by simpa using hc)
    | succ n =>
      rw [List.getLast?_append_of_ne_nil _ (by simp)] at hc
      obtain rfl := List.eq_of_mem_replicate (List.mem_of_getLast? hc)
      decide

/-- Nothing is taken from a base URL whose rest ends in no white space. -/
theorem rest_withScheme (hne : rest ≠ []) (hslash : rest.getLast? ≠ some '/')
    (hlast : ∀ c ∈ rest.getLast?, isBlank c = false) :
    Rest (withScheme rest) (withScheme rest) := by
  refine ⟨0, ?_, by rwa [getLast?_withScheme hne]⟩
  rw [List.replicate_zero, List.append_nil]
  refine ⟨⟨[], [], by simp, by simp, by simp⟩, fun c hc => ?_, fun c hc => ?_⟩
  · rw [head?_withScheme] at hc
    cases hc
    decide
  · rw [getLast?_withScheme hne] at hc
    exact hlast c hc

/-- A base URL that ends in white space is another one when it is written as an endpoint. -/
theorem withScheme_ne {url : List Char} {c : Char} (hend : url.getLast? = some c)
    (hc : isBlank c = true) (hrest : Rest url rest) : withScheme rest ≠ url := by
  unfold withScheme
  split
  · -- The rest is shorter: the white space at the end is not in it.
    rintro rfl
    obtain ⟨n, ⟨⟨front, back, hurl, -, -⟩, -, hlast⟩, -⟩ := hrest
    have hlength := congrArg List.length hurl
    simp only [List.length_append, List.length_replicate] at hlength
    obtain rfl : n = 0 := by omega
    rw [List.replicate_zero, List.append_nil] at hlast
    rw [hlast c hend] at hc
    cases hc
  · -- The rest names no scheme, so it is in front of the end of the one that it gets.
    rename_i hscheme
    rintro rfl
    have hne : rest ≠ [] := by
      rintro rfl
      cases hend
      exact absurd hc (by decide)
    rw [List.getLast?_append_of_ne_nil _ hne] at hend
    have hfront : rest <+: "http://".toList ++ rest := by
      refine hrest.front fun d hd => ?_
      cases hd
      decide
    rcases List.prefix_or_prefix_of_prefix hfront (List.prefix_append _ _) with hshort | hlong
    · have hmem : c ∈ "http://".toList := hshort.subset (List.mem_of_getLast? hend)
      have hnone : ("http://".toList.all fun c => !isBlank c) = true := by decide
      simpa [hc] using List.all_eq_true.1 hnone c hmem
    · exact hscheme (hasScheme_iff.2 (.inl hlong))

/-- An address is that of its base URL exactly if something is left of the endpoint, and ends in no
white space. -/
theorem new_baseUrl_iff (hrest : Rest endpoint.toList rest) (id : ProviderId) :
    new (new endpoint id).baseUrl id = new endpoint id ↔
      rest ≠ [] ∧ ∀ c ∈ rest.getLast?, isBlank c = false := by
  obtain rfl := rest_iff.1 hrest
  rw [new_eq_iff, baseUrl_new, String.toList_ofList]
  generalize normalChars endpoint.toList = rest at hrest
  constructor
  · intro heq
    have hne : rest ≠ [] := by
      rintro rfl
      exact absurd heq (by decide)
    refine ⟨hne, fun c hc => Bool.eq_false_iff.2 fun hblank => ?_⟩
    have hend : (withScheme rest).getLast? = some c := (getLast?_withScheme hne).trans hc
    exact withScheme_ne hend hblank (rest_iff.2 rfl) heq
  · rintro ⟨hne, hlast⟩
    obtain ⟨-, -, hslash⟩ := hrest
    rw [← rest_iff.1 (rest_withScheme hne hslash hlast), withScheme,
      if_pos (hasScheme_withScheme rest)]

/-! ### URLs of calls -/

theorem toList_url (a : Address) (rpc : String) :
    (a.url rpc).toList = a.baseUrl.toList ++ ("/v1/providers/".toList ++
      (Nat.toDigits 10 a.providerId.toNat ++ '/' :: rpc.toList)) := by
  simp only [url, Rpc.path, String.toList_append, toList_toString, List.append_assoc]
  rfl

/-- Calls with one URL below one base URL are the same call: no id has a slash in it. -/
theorem url_inj {a a' : Address} {rpc rpc' : String} (hbase : a.baseUrl = a'.baseUrl)
    (h : a.url rpc = a'.url rpc') : a.providerId = a'.providerId ∧ rpc = rpc' := by
  have hpath := congrArg String.toList h
  rw [toList_url, toList_url, hbase, List.append_cancel_left_eq,
    List.append_cancel_left_eq] at hpath
  -- The id ends at the first slash.
  have hnoSlash : ∀ n, '/' ∉ Nat.toDigits 10 n := fun n =>
    Http.notMem_of_isPlain (Http.isPlain_toDigits n)
  have hpieces := congrArg (pieces '/') hpath
  rw [pieces_append _ (hnoSlash _), pieces_append _ (hnoSlash _)] at hpieces
  have hdigits := (List.cons.inj hpieces).1
  have hid : a.providerId = a'.providerId := by
    have hread := congrArg Http.providerId? hdigits
    rw [Http.providerId?_toDigits, Http.providerId?_toDigits] at hread
    exact Option.some.inj hread
  rw [hdigits, List.append_cancel_left_eq] at hpath
  exact ⟨hid, String.toList_inj.1 (List.cons.inj hpath).2⟩

/-! ### The promise -/

/-- What holds of the address of a provider on an endpoint of which `rest` is left. -/
structure Normal (endpoint : String) (id : ProviderId) (rest : List Char) : Prop where
  /-- The base URL is what is left, behind `http://` if it names no scheme. -/
  baseUrl : (new endpoint id).baseUrl = String.ofList
    (if "http://".toList <+: rest ∨ "https://".toList <+: rest then rest
      else "http://".toList ++ rest)
  /-- The base URL stands for the address unless nothing is left, or white space at the end. -/
  again : new (new endpoint id).baseUrl id = new endpoint id ↔
    rest ≠ [] ∧ ∀ c ∈ rest.getLast?, isBlank c = false
  /-- Otherwise white space around the rest and slashes behind it make no difference, and one slash
  is between the base URL and the path of a call. -/
  written : rest ≠ [] → (∀ c ∈ rest.getLast?, isBlank c = false) →
    (∀ (front back : List Char) (n : Nat), (∀ c ∈ front, isBlank c = true) →
      (∀ c ∈ back, isBlank c = true) →
      new (String.ofList (front ++ rest ++ List.replicate n '/' ++ back)) id = new endpoint id) ∧
    (new endpoint id).baseUrl.toList.getLast? ≠ some '/' ∧
    ∀ rpc : String, (new endpoint id).url rpc =
      (new endpoint id).baseUrl ++ "/" ++ ("v1/providers/" ++ toString id ++ "/" ++ rpc)
  /-- Whatever endpoint has the same base URL, no other call goes to the URL of a call. -/
  distinct : ∀ (endpoint' : String) (id' : ProviderId) (rpc rpc' : String),
    (new endpoint' id').baseUrl = (new endpoint id).baseUrl →
    (new endpoint id).url rpc = (new endpoint' id').url rpc' → id = id' ∧ rpc = rpc'

/-- **Addresses are normal**: of every endpoint one rest is left, which tells all of its address. -/
theorem new_normal (endpoint : String) (id : ProviderId) :
    ∃ rest, (∀ other, Rest endpoint.toList other ↔ other = rest) ∧ Normal endpoint id rest := by
  have hrest : Rest endpoint.toList (normalChars endpoint.toList) := rest_iff.2 rfl
  refine ⟨_, fun other => rest_iff, ?_, new_baseUrl_iff hrest id, fun hne hlast => ⟨?_, ?_, ?_⟩, ?_⟩
  · rw [baseUrl_new, withScheme]
    simp only [hasScheme_iff]
  · intro front back n hfront hback
    have hwritten := rest_iff.1 (rest_written hrest hne hlast hfront hback n)
    rw [new_eq_iff, String.toList_ofList, ← hwritten]
  · obtain ⟨-, -, hslash⟩ := hrest
    rw [baseUrl_new, String.toList_ofList, getLast?_withScheme hne]
    exact hslash
  · intro rpc
    rw [url, Rpc.path]
    simp only [String.append_assoc]
    rfl
  · intro endpoint' id' rpc rpc' hbase hurl
    exact url_inj hbase.symm hurl

/-- White space in front of the slash is left, and is taken from the base URL. -/
example :
    (new " host /" 0).baseUrl = "http://host " ∧
      (new (new " host /" 0).baseUrl 0).baseUrl = "http://host" := by
  decide

end Address
end Collectors
