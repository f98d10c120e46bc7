import Collectors.Client.Sharing

/-!
# What calls on handles do

`HandleCall.Move` says everything that the next step of a call can come to, and
`HandleCall.step_move` that every step is one of these. What a step leaves alone
(`Move.elsewhere`), what it makes of a handle (`Move.handle`) and what is recorded of it
(`Move.count_retained`, `Move.count_released`) is read off from that.
-/

namespace Collectors

/-- A handle after a change of the one at a place. -/
theorem Client.handle_modify {c : Client} {place : Nat} {h : Handle}
    (found : c.handles[place]? = some h) (q : Nat) (f : Handle → Handle) :
    (c.modify q f).handles[place]? = some (if q = place then f h else h) := by
  rw [Client.modify, List.getElem?_modify, found]
  rfl

/-- The handle that a deed was done to. -/
def Deed.place : Deed → Nat
  | retained place | released place | emptied place | freed place => place

namespace HandleCall

/-- The handle that a call is still to act on. -/
def place? : HandleCall → Option Nat
  | retain place | release place | free place => some place
  | finished _ => none

/-- How often a call is still to free the handle at a place. -/
def freeing (place : Nat) : HandleCall → Nat
  | free q => if q = place then 1 else 0
  | _ => 0

/-- Whether a call was refused. -/
def isRefused : HandleCall → Bool
  | finished (.error _) => true
  | _ => false

/-! ### One step of a call -/

/-- What the next step of a call can come to: what is left of the call, the client then, and what
was done. -/
inductive Move (c : Client) : HandleCall → HandleCall → Client → List Deed → Prop where
  | retained {place h} (found : c.handles[place]? = some h) (alive : h.refcount ≠ 0) :
      Move c (.retain place) (.finished (.ok ()))
        (c.modify place fun h => { h with refcount := h.refcount + 1 })
        [.retained place]
  | released {place h} (found : c.handles[place]? = some h) (alive : h.refcount ≠ 0)
      (more : h.refcount ≠ 1) :
      Move c (.release place) (.finished (.ok ()))
        (c.modify place fun h => { h with refcount := h.refcount - 1 })
        [.released place]
  | emptied {place h} (found : c.handles[place]? = some h) (last : h.refcount = 1) :
      Move c (.release place) (.free place)
        (c.modify place fun h => { h with refcount := h.refcount - 1 })
        [.released place, .emptied place]
  | refused {call place h} (asked : call = .retain place ∨ call = .release place)
      (found : c.handles[place]? = some h) (dead : h.refcount = 0) :
      Move c call (.finished (.error h.released)) c []
  | freed {place h a} (found : c.handles[place]? = some h) (target : h.target = some a) :
      Move c (.free place) (.finished (.ok ()))
        { c.modify place (fun h => { h with target := none }) with
          openHandles := c.openHandles - 1 }
        [.freed place]
  | late {place h} (found : c.handles[place]? = some h) (target : h.target = none) :
      Move c (.free place) (.finished (.ok ())) c []
  | finished (result) : Move c (.finished result) (.finished result) c []

theorem step_move {c : Client} {call : HandleCall}
    (hplace : ∀ place, call.place? = some place → place < c.handles.length) :
    Move c call (call.step c).result (call.step c).client (call.deeds c) := by
  have hfound : ∀ place, call.place? = some place → ∃ h, c.handles[place]? = some h :=
    fun place h => ⟨_, List.getElem?_eq_getElem (hplace place h)⟩
  cases call with
  | retain place =>
    obtain ⟨h, found⟩ := hfound place rfl
    simp only [step, deeds, Client.retain, found]
    by_cases hzero : h.refcount = 0
    · rw [if_pos hzero]
      exact .refused (.inl rfl) found hzero
    · rw [if_neg hzero]
      exact .retained found hzero
  | release place =>
    obtain ⟨h, found⟩ := hfound place rfl
    simp only [step, deeds, Client.countDown, found]
    by_cases hzero : h.refcount = 0
    · rw [if_pos hzero]
      exact .refused (.inr rfl) found hzero
    · rw [if_neg hzero]
      by_cases hone : h.refcount = 1
      · rw [decide_eq_true hone]
        exact .emptied found hone
      · rw [decide_eq_false hone]
        exact .released found hzero hone
  | free place =>
    obtain ⟨h, found⟩ := hfound place rfl
    simp only [step, deeds, Client.free, found, Option.bind_some]
    cases htarget : h.target with
    | some a => exact .freed found htarget
    | none => exact .late found htarget
  | finished result => exact .finished result

variable {c c' : Client} {call next : HandleCall} {ds : List Deed} {place : Nat}

theorem Move.length_handles (h : Move c call next c' ds) :
    c'.handles.length = c.handles.length := by
  cases h with
  | retained | released | emptied | freed => exact List.length_modify _ _ _
  | refused | late | finished => rfl

/-- A call acts on one handle only. -/
theorem Move.place? (h : Move c call next c' ds) :
    (∀ place, next.place? = some place → call.place? = some place) ∧
      ∀ d ∈ ds, call.place? = some d.place := by
  cases h with
  | refused => exact ⟨nofun, nofun⟩
  | _ => simp [HandleCall.place?, Deed.place]

/-- A step leaves the handles alone that it does not act on. -/
theorem Move.elsewhere (h : Move c call next c' ds) (hne : call.place? ≠ some place) :
    c'.handles[place]? = c.handles[place]? ∧ (∀ d ∈ ds, d.place ≠ place) ∧
      next.freeing place = call.freeing place := by
  cases h with
  | retained | released | emptied | freed =>
    have hplace : _ ≠ place := fun hplace => hne (congrArg some hplace)
    refine ⟨List.getElem?_modify_ne _ _ hplace, ?_, ?_⟩
    · simpa [Deed.place] using hplace
    · simp [freeing, hplace]
  | refused asked => rcases asked with rfl | rfl <;> exact ⟨rfl, nofun, rfl⟩
  | late =>
    have hplace : _ ≠ place := fun hplace => hne (congrArg some hplace)
    exact ⟨rfl, nofun, by simp [freeing, hplace]⟩
  | finished => exact ⟨rfl, nofun, rfl⟩

/-- What a step makes of a handle: if it has no references, it gets none, and it keeps its address
unless the step is to free it. -/
theorem Move.handle (hmove : Move c call next c' ds) {h : Handle}
    (hh : c.handles[place]? = some h) :
    ∃ h' : Handle, c'.handles[place]? = some h' ∧ (h.refcount = 0 → h'.refcount = 0) ∧
      (call ≠ .free place → h'.target = h.target) := by
  cases hmove with
  | @retained q _ found alive | @released q _ found alive =>
    refine ⟨_, Client.handle_modify hh q _, fun hzero => ?_, fun _ => by split <;> rfl⟩
    split
    · rename_i hq
      cases hq
      cases found.symm.trans hh
      exact absurd hzero alive
    · exact hzero
  | @emptied q _ found last =>
    refine ⟨_, Client.handle_modify hh q _, fun hzero => ?_, fun _ => by split <;> rfl⟩
    split
    · rename_i hq
      cases hq
      cases found.symm.trans hh
      rw [last] at hzero
      exact absurd hzero (by decide)
    · exact hzero
  | @freed q _ _ found =>
    refine ⟨_, Client.handle_modify hh q _, fun hzero => by split <;> exact hzero, fun hne => ?_⟩
    rw [if_neg fun hq => hne (congrArg free hq)]
  | refused | late | finished => exact ⟨h, hh, id, fun _ => rfl⟩

/-- Only freeing takes an open handle. -/
theorem Move.openHandles_le (h : Move c call next c' ds) (hcall : ∀ place, call ≠ .free place) :
    c.openHandles ≤ c'.openHandles := by
  cases h with
  | freed | late => exact absurd rfl (hcall _)
  | _ => exact Nat.le_refl _

/-- The references that are recorded as taken are those of calls that are not refused. -/
theorem Move.count_retained (h : Move c call next c' ds) (place : Nat) :
    ((call = .retain place ∧ next.isRefused = false) ∧ ds.count (.retained place) = 1) ∨
      (¬ (call = .retain place ∧ next.isRefused = false) ∧ ds.count (.retained place) = 0) := by
  cases h with
  | @retained q _ found alive =>
    by_cases hq : q = place
    · subst hq
      exact .inl ⟨⟨rfl, rfl⟩, by simp⟩
    · exact .inr ⟨by simp [hq], by simp [hq]⟩
  | refused asked => exact .inr ⟨by simp [isRefused], rfl⟩
  | _ => exact .inr ⟨by simp, by simp⟩

/-- So are those that are recorded as given back. -/
theorem Move.count_released (h : Move c call next c' ds) (place : Nat) :
    ((call = .release place ∧ next.isRefused = false) ∧ ds.count (.released place) = 1) ∨
      (¬ (call = .release place ∧ next.isRefused = false) ∧ ds.count (.released place) = 0) := by
  cases h with
  | @released q _ found alive more | @emptied q _ found last =>
    by_cases hq : q = place
    · subst hq
      exact .inl ⟨⟨rfl, rfl⟩, by simp⟩
    · exact .inr ⟨by simp [hq], by simp [hq]⟩
  | refused asked => exact .inr ⟨by simp [isRefused], rfl⟩
  | _ => exact .inr ⟨by simp, by simp⟩

end HandleCall

end Collectors
