import Mathlib.Algebra.BigOperators.Group.List.Basic
import Mathlib.Algebra.GroupWithZero.Nat
import Mathlib.Data.List.Induction
import Mathlib.Data.List.Nodup

/-!
# Lists with keys, sums over lists

The facts about lists that the other files use: a list without double keys is one of its members
and the others, a lookup finds what was added last where there was nothing before, and a sum over a
list follows a change of one of its members.
-/

namespace Collectors

variable {α γ : Type}

/-- A member of a list without double keys and the members with other keys make up the list. -/
theorem perm_cons_filter_key {κ : Type} [DecidableEq κ] (key : α → κ) {l : List α} {a : α}
    (hl : (l.map key).Nodup) (ha : a ∈ l) : l.Perm (a :: l.filter fun b => key b ≠ key a) := by
  induction l with
  | nil => cases ha
  | cons b l ih =>
    rw [List.map_cons, List.nodup_cons] at hl
    rcases List.mem_cons.1 ha with rfl | ha
    · have hall : ∀ b ∈ l, key b ≠ key a := fun b hb h => hl.1 (List.mem_map.2 ⟨b, hb, h⟩)
      rw [List.filter_cons_of_neg (by simp), List.filter_eq_self.2 (by simpa using hall)]
    · have hne : key b ≠ key a := fun h => hl.1 (List.mem_map.2 ⟨a, ha, h.symm⟩)
      rw [List.filter_cons_of_pos (by simpa using hne)]
      exact ((ih hl.2 ha).cons b).trans (.swap a b _)

/-- In a list without double keys only the member itself has its key. -/
theorem filter_key_eq {κ : Type} [DecidableEq κ] (key : α → κ) {l : List α} {a : α}
    (hl : (l.map key).Nodup) (ha : a ∈ l) : l.filter (fun b => key b = key a) = [a] := by
  induction l with
  | nil => cases ha
  | cons b l ih =>
    rw [List.map_cons, List.nodup_cons] at hl
    rcases List.mem_cons.1 ha with rfl | ha
    · have hnone : ∀ b ∈ l, ¬key b = key a := fun b hb h => hl.1 (List.mem_map.2 ⟨b, hb, h⟩)
      rw [List.filter_cons_of_pos (by simp), List.filter_eq_nil_iff.2 (by simpa using hnone)]
    · have hne : ¬key b = key a := fun h => hl.1 (List.mem_map.2 ⟨a, ha, h.symm⟩)
      rw [List.filter_cons_of_neg (by simpa using hne), ih hl.2 ha]

theorem lookup_eq_none_iff {κ : Type} [DecidableEq κ] {key : κ} {l : List (κ × γ)} :
    l.lookup key = none ↔ key ∉ l.map Prod.fst := by
  induction l with
  | nil => simp
  | cons entry l ih =>
    rw [List.lookup_cons, List.map_cons, List.mem_cons, not_or, ← ih]
    by_cases hkey : key = entry.1
    · simp [hkey]
    · simp [hkey, beq_false_of_ne hkey]

/-- Nothing is found under a key whose entries are gone, and everything else is found as before. -/
theorem lookup_filter_ne {κ : Type} [DecidableEq κ] (key : κ) (l : List (κ × γ)) (x : κ) :
    (l.filter fun entry => entry.1 ≠ key).lookup x = if x = key then none else l.lookup x := by
  induction l with
  | nil => simp
  | cons entry l ih =>
    by_cases hentry : entry.1 = key
    · rw [List.filter_cons_of_neg (by simpa using hentry), ih, List.lookup_cons]
      split
      · rfl
      · rename_i hx
        rw [hentry, beq_false_of_ne hx]
    · rw [List.filter_cons_of_pos (by simpa using hentry), List.lookup_cons, List.lookup_cons, ih]
      by_cases hx : x = entry.1
      · rw [hx, if_neg hentry, beq_self_eq_true, if_neg hentry]
      · rw [beq_false_of_ne hx]

theorem lookup_concat {κ : Type} [DecidableEq κ] (l : List (κ × γ)) (a x : κ) (b : γ) :
    (l ++ [(a, b)]).lookup x = (l.lookup x).or (if x = a then some b else none) := by
  rw [List.lookup_append, List.lookup_cons, List.lookup_nil]
  by_cases h : x = a
  · simp [h]
  · simp [h, beq_false_of_ne h]

/-- Changing one member of a list changes a sum over it by the difference. -/
theorem sum_map_set (f : α → Nat) {l : List α} {i : Nat} {a : α} (h : l[i]? = some a) (a' : α) :
    ((l.set i a').map f).sum + f a = (l.map f).sum + f a' := by
  induction l generalizing i with
  | nil => simp at h
  | cons b l ih =>
    cases i with
    | zero =>
      obtain rfl : b = a := by simpa using h
      simp only [List.set_cons_zero, List.map_cons, List.sum_cons]
      omega
    | succ i =>
      have := ih (by simpa using h)
      simp only [List.set_cons_succ, List.map_cons, List.sum_cons]
      omega

/-- Changing one member of a list changes a count in it by the difference. -/
theorem countP_set (p : α → Bool) {l : List α} {i : Nat} {a : α} (h : l[i]? = some a) (a' : α) :
    (l.set i a').countP p + (if p a then 1 else 0) = l.countP p + if p a' then 1 else 0 := by
  obtain ⟨hlt, rfl⟩ := List.getElem?_eq_some_iff.1 h
  have hpos : p l[i] = true → 0 < l.countP p := fun hp =>
    List.countP_pos_iff.2 ⟨_, List.getElem_mem hlt, hp⟩
  rw [List.countP_set hlt]
  cases hp : p l[i] with
  | true =>
    have := hpos hp
    simp only [if_true]
    omega
  | false => simp

/-- A sum over a list is at least what one of its members gives. -/
theorem le_sum_map (f : α → Nat) {l : List α} {a : α} (h : a ∈ l) : f a ≤ (l.map f).sum := by
  induction l with
  | nil => cases h
  | cons b l ih =>
    rw [List.map_cons, List.sum_cons]
    rcases List.mem_cons.1 h with rfl | h
    · exact Nat.le_add_right _ _
    · exact Nat.le_trans (ih h) (Nat.le_add_left _ _)

/-- Changing one member of a list changes what this one gives, and nothing else. -/
theorem perm_flatMap_set (f : α → List γ) {l : List α} {i : Nat} {a : α} (h : l[i]? = some a) :
    ∃ rest, (l.flatMap f).Perm (f a ++ rest) ∧
      ∀ a', ((l.set i a').flatMap f).Perm (f a' ++ rest) := by
  induction l generalizing i with
  | nil => simp at h
  | cons b l ih =>
    cases i with
    | zero =>
      obtain rfl : b = a := by simpa using h
      exact ⟨l.flatMap f, .refl _, fun a' => .refl _⟩
    | succ i =>
      obtain ⟨rest, hold, hnew⟩ := ih (by simpa using h)
      refine ⟨f b ++ rest, ?_, fun a' => ?_⟩
      · exact (hold.append_left (f b)).trans (List.perm_append_comm_assoc _ _ _)
      · exact ((hnew a').append_left (f b)).trans (List.perm_append_comm_assoc _ _ _)

theorem perm_append_shuffle (k k' m m' : List α) :
    (k ++ k' ++ (m ++ m')).Perm (k ++ m ++ (k' ++ m')) := by
  rw [List.append_assoc, List.append_assoc]
  refine List.Perm.append_left k ?_
  rw [← List.append_assoc, ← List.append_assoc]
  exact List.Perm.append_right m' List.perm_append_comm

/-- What is among `a` and `b` stays so, while some of `a` move to `b`. -/
theorem perm_exchange {l a a' b m n : List α} (h : l.Perm (a ++ b))
    (hstep : (a ++ m).Perm (a' ++ n)) : (l ++ m).Perm (a' ++ (b ++ n)) :=
  calc
    (l ++ m).Perm (a ++ b ++ m) := h.append_right m
    List.Perm _ (a ++ m ++ b) := by
      rw [List.append_assoc, List.append_assoc]
      exact List.perm_append_comm.append_left a
    List.Perm _ (a' ++ n ++ b) := hstep.append_right b
    List.Perm _ (a' ++ (b ++ n)) := by
      rw [List.append_assoc]
      exact List.perm_append_comm.append_left a'

/-- How many things the members of a list give, if the number does not depend on their places. -/
theorem length_flatMap_zipIdx (l : List α) (f : α × Nat → List γ) (n : α → Nat)
    (h : ∀ x i, (f (x, i)).length = n x) : (l.zipIdx.flatMap f).length = (l.map n).sum := by
  have hf : (fun x => (f x).length) = n ∘ Prod.fst := funext fun (x, i) => h x i
  rw [List.length_flatMap, hf, ← List.map_map, List.zipIdx_map_fst]

theorem sum_range_ite_eq (k n : Nat) :
    ((List.range n).map fun i => if k = i then 1 else 0).sum = if k < n then 1 else 0 := by
  induction n with
  | zero => rfl
  | succ n ih =>
    rw [List.range_succ, List.map_append, List.sum_append, ih, List.map_singleton,
      List.sum_singleton]
    split_ifs <;> omega

/-- Things that are told apart by numbers below `n` are counted number by number. -/
theorem sum_countP_range (key : α → Nat) {n : Nat} {l : List α} (h : ∀ a ∈ l, key a < n) :
    ((List.range n).map fun i => l.countP fun a => key a = i).sum = l.length := by
  induction l with
  | nil => simp
  | cons a l ih =>
    have hone := sum_range_ite_eq (key a) n
    rw [if_pos (h a List.mem_cons_self)] at hone
    simp only [List.countP_cons, decide_eq_true_eq, List.sum_map_add, List.length_cons, hone]
    rw [ih fun a ha => h a (List.mem_cons_of_mem _ ha)]

/-- A count is a sum of ones. -/
theorem sum_map_ite (p : α → Bool) (l : List α) :
    (l.map fun a => if p a then 1 else 0).sum = l.countP p := by
  induction l with
  | nil => rfl
  | cons a l ih => rw [List.map_cons, List.sum_cons, ih, List.countP_cons, Nat.add_comm]

/-- What is counted in a list can be counted by places. -/
theorem countP_range_length {l : List α} {p : Nat → Bool} {q : α → Bool}
    (h : ∀ (i : Nat) (a : α), l[i]? = some a → p i = q a) :
    (List.range l.length).countP p = l.countP q := by
  induction l using List.reverseRecOn with
  | nil => rfl
  | append_singleton l b ih =>
    have hfront : (List.range l.length).countP p = l.countP q := ih fun i a hi => by
      refine h i a ?_
      rw [List.getElem?_append_left (List.getElem?_eq_some_iff.1 hi).1, hi]
    have hlast : p l.length = q b := h l.length b List.getElem?_concat_length
    rw [List.length_append, List.length_singleton, List.range_succ, List.countP_append,
      List.countP_append, hfront, List.countP_singleton, List.countP_singleton, hlast]

/-- What is left out of a list gives nothing to a sum. -/
theorem sum_map_filterMap (f : γ → Nat) (g : α → Option γ) (l : List α) :
    ((l.filterMap g).map f).sum = (l.map fun a => ((g a).map f).getD 0).sum := by
  induction l with
  | nil => rfl
  | cons a l ih =>
    cases h : g a with
    | none =>
      rw [List.filterMap_cons_none h, ih, List.map_cons, List.sum_cons, h]
      exact (Nat.zero_add _).symm
    | some c =>
      rw [List.filterMap_cons_some h, List.map_cons, List.sum_cons, ih, List.map_cons,
        List.sum_cons, h]
      rfl

end Collectors
