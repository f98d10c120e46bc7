import Collectors.Error

/-!
# Registries of backends

A registry holds backends under their names, sorted by name. A name that is taken keeps its
backend for ever.
-/

namespace Collectors

/-- The backends of a provider, sorted by name. -/
structure Registry (β : Type) where
  entries : List (String × β) := []
  sorted : (entries.map Prod.fst).Pairwise (· < ·) := by simp

namespace Registry

variable {β : Type}

/-- The registered names, sorted. -/
def names (r : Registry β) : List String := r.entries.map Prod.fst

/-- The number of registered backends. -/
def size (r : Registry β) : Nat := r.entries.length

/-- Whether no backend is registered. -/
def isEmpty (r : Registry β) : Bool := r.entries.isEmpty

/-- The backend with a name. -/
def find? (r : Registry β) (name : String) : Option β := r.entries.lookup name

/-- Whether a name is registered. -/
def contains (r : Registry β) (name : String) : Bool := r.names.contains name

theorem sorted_singleton (name : String) (backend : β) :
    ([(name, backend)].map Prod.fst).Pairwise (· < ·) :=
  List.pairwise_singleton _ _

/-- Puts an entry in front of the first one with a greater name. -/
def place (name : String) (backend : β) : List (String × β) → List (String × β)
  | [] => [(name, backend)]
  | (n, b) :: rest =>
    if name < n then (name, backend) :: (n, b) :: rest else (n, b) :: place name backend rest

theorem mem_names_place {name n : String} {b : β} {l : List (String × β)} :
    n ∈ (place name b l).map Prod.fst ↔ n = name ∨ n ∈ l.map Prod.fst := by
  induction l with
  | nil => simp [place]
  | cons p l ih =>
    unfold place
    split
    · simp
    · simp only [List.map_cons, List.mem_cons, ih, or_left_comm]

theorem sorted_place {name : String} {b : β} {l : List (String × β)}
    (hl : (l.map Prod.fst).Pairwise (· < ·)) (h : name ∉ l.map Prod.fst) :
    ((place name b l).map Prod.fst).Pairwise (· < ·) := by
  induction l with
  | nil => simp [place]
  | cons p l ih =>
    simp only [List.map_cons, List.pairwise_cons, List.mem_cons, not_or] at hl h
    unfold place
    split
    · rename_i hlt
      simp only [List.map_cons, List.pairwise_cons]
      refine ⟨fun a ha => ?_, hl.1, hl.2⟩
      rcases List.mem_cons.1 ha with rfl | ha
      · exact hlt
      · exact String.lt_trans hlt (hl.1 a ha)
    · rename_i hlt
      simp only [List.map_cons, List.pairwise_cons]
      refine ⟨fun a ha => ?_, ih hl.2 h.2⟩
      rcases mem_names_place.1 ha with rfl | ha
      · exact String.not_le.1 fun hle => h.1 (String.le_antisymm hle (String.not_lt.1 hlt))
      · exact hl.1 a ha

/-- Registers a backend under a name that is free. -/
def register (r : Registry β) (name : String) (backend : β) : Except Error (Registry β) :=
  if h : r.contains name then .error (.backendAlreadyRegistered name)
  else .ok
    { entries := place name backend r.entries
      sorted := sorted_place r.sorted (by simpa [contains, names] using h) }

end Registry
end Collectors
