import Collectors.Client.RemoteCall
import Collectors.Proofs.HandleCalls
import Collectors.Proofs.Lists

/-!
# What the references of handles come to

`Sharing.Kept` relates one handle to the record of what was done to it, and `Sharing.Sound` all
handles to the count of the open ones. Every step keeps a sound state sound, as long as no count
of references reaches its limit (`Sharing.Sound.step`).

`Sharing.run_counted` reads off from it what a client promises about its handles.
-/

namespace Collectors

/-- The handles after a change of the one at a place. -/
theorem Client.handles_modify {c : Client} {place : Nat} {h : Handle}
    (found : c.handles[place]? = some h) (f : Handle → Handle) :
    (c.modify place f).handles = c.handles.set place (f h) := by
  rw [Client.modify, List.modify_eq_set_getElem?, found]
  rfl

/-- What calls on a handle change of it. -/
def Handle.standing (h : Handle) : UInt64 × Option Address := (h.refcount, h.target)

/-! ### Counting -/

theorem toNat_add_one {a : UInt64} (h : a.toNat < UInt64.size - 1) :
    (a + 1).toNat = a.toNat + 1 := by
  rw [UInt64.toNat_add, UInt64.toNat_one]
  exact Nat.mod_eq_of_lt (Nat.add_lt_of_lt_sub h)

theorem toNat_sub_one {a : UInt64} (h : a ≠ 0) : (a - 1).toNat + 1 = a.toNat := by
  have hpos : a.toNat ≠ 0 := fun hzero => h (UInt64.toNat_inj.1 hzero)
  have hle : (1 : UInt64) ≤ a := UInt64.le_iff_toNat_le.2 (Nat.one_le_iff_ne_zero.2 hpos)
  rw [UInt64.toNat_sub_of_le _ _ hle, UInt64.toNat_one]
  omega

namespace Sharing

/-- How often calls are still to free the handle at a place. -/
def freeing (s : Sharing) (place : Nat) : Nat := (s.calls.map (HandleCall.freeing place)).sum

/-- What the record says of the handle at a place. -/
structure Kept (s : Sharing) (place : Nat) (h : Handle) : Prop where
  counted : h.count + s.released place = 1 + s.retained place
  emptied : s.emptied place = if h.refcount = 0 then 1 else 0
  freeing : s.freed place + s.freeing place = s.emptied place
  freed : s.freed place = if h.target.isNone then 1 else 0

/-- The state of a client whose handles agree with the record, and whose count of open handles is
that of the handles with an address. -/
structure Sound (s : Sharing) : Prop where
  placed : ∀ call ∈ s.calls, ∀ place, call.place? = some place → place < s.client.handles.length
  recorded : ∀ d ∈ s.deeds, d.place < s.client.handles.length
  kept : ∀ place h, s.client.handles[place]? = some h → s.Kept place h
  openHandles : s.client.openHandles = s.client.handles.countP fun h => h.target.isSome

variable {s : Sharing}

/-- What is said of a handle stays true as long as nothing is done to it. -/
theorem Kept.of_eq {s' : Sharing} {place : Nat} {h h' : Handle} (hk : s.Kept place h)
    (hrefcount : h'.refcount = h.refcount) (htarget : h'.target = h.target)
    (hdeeds : ∀ d : Deed, d.place = place → s'.deeds.count d = s.deeds.count d)
    (hfreeing : s'.freeing place = s.freeing place) : s'.Kept place h' where
  counted := by
    rw [released, retained, hdeeds _ rfl, hdeeds _ rfl, Handle.count, hrefcount]
    exact hk.counted
  emptied := by
    rw [Sharing.emptied, hdeeds _ rfl, hrefcount]
    exact hk.emptied
  freeing := by
    rw [Sharing.freed, Sharing.emptied, hdeeds _ rfl, hdeeds _ rfl, hfreeing]
    exact hk.freeing
  freed := by
    rw [Sharing.freed, hdeeds _ rfl, htarget]
    exact hk.freed

/-! ### A step of a call -/

section StepCall

variable {i place : Nat} {call next : HandleCall} {c' : Client} {ds : List Deed} {h : Handle}

theorem freeing_set (hi : s.calls[i]? = some call) (place : Nat) :
    ((s.calls.set i next).map (HandleCall.freeing place)).sum + call.freeing place =
      s.freeing place + next.freeing place :=
  sum_map_set (HandleCall.freeing place) hi next

/-- A handle agrees with the record after a step that has done `ds`, if the step has changed its
references, its address and what calls are still to do by just that. -/
theorem Kept.of_step {h' : Handle} (hk : s.Kept place h) (hi : s.calls[i]? = some call)
    (hcounted : h'.count + ds.count (.released place) = h.count + ds.count (.retained place))
    (hemptied : s.emptied place + ds.count (.emptied place) = if h'.refcount = 0 then 1 else 0)
    (hfreeing : ds.count (.freed place) + next.freeing place =
      call.freeing place + ds.count (.emptied place))
    (hfreed : s.freed place + ds.count (.freed place) = if h'.target.isNone then 1 else 0) :
    Kept ⟨c', s.calls.set i next, s.deeds ++ ds⟩ place h' where
  counted := by
    have := hk.counted
    simp only [released, retained, List.count_append] at this ⊢
    omega
  emptied := List.count_append.trans hemptied
  freeing := by
    have hset : Sharing.freeing ⟨c', s.calls.set i next, s.deeds ++ ds⟩ place +
      call.freeing place = s.freeing place + next.freeing place := freeing_set hi place
    have := hk.freeing
    simp only [Sharing.freed, Sharing.emptied, List.count_append] at this ⊢
    omega
  freed := List.count_append.trans hfreed

/-- A handle that a call is to free still has its address. -/
theorem Kept.target_ne_none (hk : s.Kept place h) (hcall : .free place ∈ s.calls) :
    h.target ≠ none := by
  intro htarget
  have hone : 1 ≤ s.freeing place := by
    have := le_sum_map (HandleCall.freeing place) hcall
    rwa [HandleCall.freeing, if_pos rfl] at this
  have hfreed := hk.freed
  have hfreeing := hk.freeing
  have hemptied := hk.emptied
  rw [htarget, Option.isNone_none, if_pos rfl] at hfreed
  split at hemptied <;> omega

/-- The handle that a step acts on still agrees with the record. -/
theorem Kept.stepCall (hk : s.Kept place h) (hb : s.Bounded)
    (found : s.client.handles[place]? = some h) (hi : s.calls[i]? = some call)
    (hmove : HandleCall.Move s.client call next c' ds) (hat : call.place? = some place) :
    ∃ h', c'.handles[place]? = some h' ∧
      Kept ⟨c', s.calls.set i next, s.deeds ++ ds⟩ place h' := by
  have hmodify (f : Handle → Handle) : (s.client.modify place f).handles[place]? = some (f h) := by
    rw [Client.handle_modify found, if_pos rfl]
  cases hmove with
  | @retained _ h' found' alive =>
    cases hat
    obtain rfl : h' = h := Option.some.inj (found'.symm.trans found)
    have hnext : (h'.refcount + 1).toNat = h'.refcount.toNat + 1 := by
      have hcounted := hk.counted
      have hbound := hb place
      exact toNat_add_one (by rw [Handle.count] at hcounted; omega)
    have halive : h'.refcount + 1 ≠ 0 := fun hzero => by simp [hzero] at hnext
    refine ⟨_, hmodify _, hk.of_step hi ?_ ?_ ?_ ?_⟩
    · simp [Handle.count, hnext]
    · simp [hk.emptied, alive, halive]
    · simp [HandleCall.freeing]
    · simp [hk.freed]
  | @released _ h' found' alive more =>
    cases hat
    obtain rfl : h' = h := Option.some.inj (found'.symm.trans found)
    have hnext := toNat_sub_one alive
    have halive : h'.refcount - 1 ≠ 0 := fun hzero => by
      rw [hzero, UInt64.toNat_zero] at hnext
      exact more (UInt64.toNat_inj.1 hnext.symm)
    refine ⟨_, hmodify _, hk.of_step hi ?_ ?_ ?_ ?_⟩
    · simpa [Handle.count] using hnext
    · simp [hk.emptied, alive, halive]
    · simp [HandleCall.freeing]
    · simp [hk.freed]
  | @emptied _ h' found' last =>
    cases hat
    obtain rfl : h' = h := Option.some.inj (found'.symm.trans found)
    refine ⟨_, hmodify _, hk.of_step hi ?_ ?_ ?_ ?_⟩
    · simp [Handle.count, last]
    · simp [hk.emptied, last]
    · simp [HandleCall.freeing]
    · simp [hk.freed]
  | @refused _ _ h' asked found' dead =>
    have hnot : call.freeing place = 0 := by rcases asked with rfl | rfl <;> rfl
    refine ⟨h, found, hk.of_step hi rfl hk.emptied ?_ hk.freed⟩
    rw [hnot]
    rfl
  | @freed _ h' a found' target =>
    cases hat
    obtain rfl : h' = h := Option.some.inj (found'.symm.trans found)
    refine ⟨_, hmodify _, hk.of_step hi ?_ ?_ ?_ ?_⟩
    · simp [Handle.count]
    · simp [hk.emptied]
    · simp [HandleCall.freeing]
    · simp [hk.freed, target]
  | @late _ h' found' target =>
    cases hat
    obtain rfl : h' = h := Option.some.inj (found'.symm.trans found)
    exact absurd target (hk.target_ne_none (List.mem_of_getElem? hi))
  | finished => cases hat

/-- The count of open handles follows their addresses. -/
theorem openHandles_move
    (hopen : s.client.openHandles = s.client.handles.countP fun h => h.target.isSome)
    (hmove : HandleCall.Move s.client call next c' ds) :
    c'.openHandles = c'.handles.countP fun h => h.target.isSome := by
  cases hmove with
  | retained found | released found | emptied found =>
    have := countP_set (fun h : Handle => h.target.isSome) found
    rw [Client.handles_modify found, ← Nat.add_right_cancel_iff, this]
    rw [← hopen]
    rfl
  | refused | late | finished => exact hopen
  | @freed place h a found target =>
    have hset := countP_set (fun h : Handle => h.target.isSome) found { h with target := none }
    simp only [target, Option.isSome_some, if_true, Option.isSome_none, Bool.false_eq_true,
      if_false] at hset
    dsimp only
    rw [Client.handles_modify found]
    omega

/-- A step of a call keeps a sound state sound. -/
theorem Sound.stepCall (hs : s.Sound) (hb : s.Bounded) (i : Nat) : (s.stepCall i).Sound := by
  unfold Sharing.stepCall
  cases hi : s.calls[i]? with
  | none => exact hs
  | some call =>
    have hmove := HandleCall.step_move (hs.placed call (List.mem_of_getElem? hi))
    dsimp only
    generalize (call.step s.client).result = next, (call.step s.client).client = c',
      call.deeds s.client = ds at hmove
    have hlength := hmove.length_handles
    refine ⟨fun call' hcall' place hplace => ?_, fun d hd => ?_, fun place h' hh' => ?_,
      openHandles_move hs.openHandles hmove⟩
    · rw [hlength]
      rcases List.mem_or_eq_of_mem_set hcall' with hcall' | rfl
      · exact hs.placed call' hcall' place hplace
      · exact hs.placed call (List.mem_of_getElem? hi) place (hmove.place?.1 place hplace)
    · rw [hlength]
      rcases List.mem_append.1 hd with hd | hd
      · exact hs.recorded d hd
      · exact hs.placed call (List.mem_of_getElem? hi) d.place (hmove.place?.2 d hd)
    · by_cases hat : call.place? = some place
      · obtain ⟨h, hh⟩ : ∃ h, s.client.handles[place]? = some h :=
          ⟨_, List.getElem?_eq_getElem (hs.placed call (List.mem_of_getElem? hi) place hat)⟩
        obtain ⟨h'', hh'', hk⟩ := (hs.kept place h hh).stepCall hb hh hi hmove hat
        obtain rfl : h'' = h' := Option.some.inj (hh''.symm.trans hh')
        exact hk
      · obtain ⟨hhandle, hdeeds, hfreeing⟩ := hmove.elsewhere hat
        refine (hs.kept place h' (hhandle ▸ hh')).of_eq rfl rfl (fun d hd => ?_) ?_
        · rw [List.count_append, Nat.add_eq_left, List.count_eq_zero]
          exact fun hmem => hdeeds d hmem hd
        · have hset : ((s.calls.set i next).map (HandleCall.freeing place)).sum +
              call.freeing place = s.freeing place + next.freeing place := freeing_set hi place
          rw [hfreeing] at hset
          exact Nat.add_right_cancel hset

end StepCall

/-! ### Everything else that happens -/

/-- Nothing that keeps the addresses and references of all handles makes a difference. -/
theorem Sound.of_handles (hs : s.Sound) {c' : Client}
    (hhandles : ∀ place : Nat, c'.handles[place]?.map Handle.standing =
      s.client.handles[place]?.map Handle.standing)
    (hopen : c'.openHandles = s.client.openHandles) : Sound { s with client := c' } := by
  have hmap : c'.handles.map Handle.standing = s.client.handles.map Handle.standing :=
    List.ext_getElem? fun place => by
      rw [List.getElem?_map, List.getElem?_map]
      exact hhandles place
  have hlength : c'.handles.length = s.client.handles.length := by
    simpa using congrArg List.length hmap
  refine ⟨?_, ?_, fun place h' hh' => ?_, ?_⟩
  · dsimp only
    rw [hlength]
    exact hs.placed
  · dsimp only
    rw [hlength]
    exact hs.recorded
  · have hsame := hhandles place
    rw [show c'.handles[place]? = some h' from hh', Option.map_some] at hsame
    obtain ⟨h, hh, heq⟩ := Option.map_eq_some_iff.1 hsame.symm
    obtain ⟨hrefcount, htarget⟩ := Prod.mk.inj heq
    exact (hs.kept place h hh).of_eq hrefcount.symm htarget.symm (fun _ _ => rfl) rfl
  · have hcount := congrArg (List.countP fun x => x.2.isSome) hmap
    rw [List.countP_map, List.countP_map] at hcount
    exact hopen.trans (hs.openHandles.trans hcount.symm)

/-- Copies and drops of handle objects are among that. -/
theorem Sound.modify (hs : s.Sound) (place : Nat) {f : Handle → Handle}
    (hf : ∀ h, (f h).standing = h.standing) :
    Sound { s with client := s.client.modify place f } := by
  refine hs.of_handles (fun other => ?_) rfl
  simp only [Client.modify, List.getElem?_modify]
  cases s.client.handles[other]? with
  | none => rfl
  | some h =>
    split
    · simp [hf]
    · rfl

theorem Sound.openHandle (hs : s.Sound) (target : Address) (collector : CollectorId) :
    Sound { s with client := (s.client.openHandle target collector).2 } := by
  have hlength : (s.client.openHandle target collector).2.handles.length =
      s.client.handles.length + 1 := List.length_append
  refine ⟨fun call hcall place hplace => ?_, fun d hd => ?_, fun place h hh => ?_, ?_⟩
  · exact Nat.lt_of_lt_of_eq (Nat.lt_succ_of_lt (hs.placed call hcall place hplace)) hlength.symm
  · exact Nat.lt_of_lt_of_eq (Nat.lt_succ_of_lt (hs.recorded d hd)) hlength.symm
  · by_cases hlt : place < s.client.handles.length
    · have hold : s.client.handles[place]? = some h :=
        (List.getElem?_append_left hlt).symm.trans hh
      exact (hs.kept place h hold).of_eq rfl rfl (fun _ _ => rfl) rfl
    · -- Nothing was done to the new handle yet, and nobody is about to.
      have hnew := (List.getElem?_append_right (Nat.not_lt.1 hlt)).symm.trans hh
      obtain rfl := List.mem_singleton.1 (List.mem_of_getElem? hnew)
      have hdeeds : ∀ d : Deed, d.place = place → s.deeds.count d = 0 := fun d hd =>
        List.count_eq_zero.2 fun hmem => hlt (hd ▸ hs.recorded d hmem)
      have hfreeing : s.freeing place = 0 := by
        refine List.sum_eq_zero fun n hn => ?_
        obtain ⟨call, hcall, rfl⟩ := List.mem_map.1 hn
        cases call with
        | free q =>
          have hq : q ≠ place := fun hq => hlt (hq ▸ hs.placed _ hcall q rfl)
          exact if_neg hq
        | _ => rfl
      exact ⟨by rw [released, retained, hdeeds _ rfl, hdeeds _ rfl]; rfl, hdeeds _ rfl,
        by rw [freed, emptied, hdeeds _ rfl, hdeeds _ rfl, Nat.zero_add]; exact hfreeing,
        hdeeds _ rfl⟩
  · have := hs.openHandles
    simp only [Client.openHandle, List.countP_append, List.countP_singleton, Option.isSome_some,
      if_true]
    omega

theorem Sound.begin (hs : s.Sound) {place : Nat} {call : HandleCall}
    (hplace : ∀ q, call.place? = some q → q = place) (hfree : ∀ q, call.freeing q = 0) :
    (s.begin place call).Sound := by
  unfold Sharing.begin
  split
  · rename_i hlt
    refine ⟨fun call' hcall' q hq => ?_, hs.recorded, fun q h hh => ?_, hs.openHandles⟩
    · rcases List.mem_append.1 hcall' with hcall' | hcall'
      · exact hs.placed call' hcall' q hq
      · obtain rfl := List.mem_singleton.1 hcall'
        exact hplace q hq ▸ hlt
    · refine (hs.kept q h hh).of_eq rfl rfl (fun _ _ => rfl) ?_
      simp [freeing, hfree]
  · exact hs

/-- **Every step keeps a sound state sound.** -/
theorem Sound.step (hs : s.Sound) (hb : s.Bounded) (e : Event) : (s.step e).Sound := by
  cases e with
  | openHandle target collector => exact hs.openHandle target collector
  | cloneHandle place => exact hs.modify place fun _ => rfl
  | dropHandle place => exact hs.modify place fun _ => rfl
  | clone => exact hs.of_handles (fun _ => rfl) rfl
  | drop => exact hs.of_handles (fun _ => rfl) rfl
  | finalize => exact hs.of_handles (fun _ => rfl) rfl
  | retain place => exact hs.begin (fun _ hq => (Option.some.inj hq).symm) fun _ => rfl
  | release place => exact hs.begin (fun _ hq => (Option.some.inj hq).symm) fun _ => rfl
  | call i => exact hs.stepCall hb i

theorem Sound.run (hs : s.Sound) {schedule : List Event} (hb : s.BoundedAlong schedule) :
    (s.run schedule).Sound := by
  induction schedule generalizing s with
  | nil => exact hs
  | cons e schedule ih => exact ih (hs.step hb.1 e) hb.2

theorem sound_start : Sound {} where
  placed := nofun
  recorded := nofun
  kept := fun _ _ hh => by cases hh
  openHandles := rfl

/-! ### Released handles -/

/-- What an event makes of a handle: if it has no references, it gets none, and it keeps its
address unless a call is to free it. -/
theorem handle_step (hs : s.Sound) {place : Nat} {h : Handle}
    (hh : s.client.handles[place]? = some h) (e : Event) :
    ∃ h' : Handle, (s.step e).client.handles[place]? = some h' ∧
      (h.refcount = 0 → h'.refcount = 0) ∧
      ((∀ i, e = .call i → s.calls[i]? ≠ some (.free place)) → h'.target = h.target) := by
  have hnothing : ∃ h' : Handle, s.client.handles[place]? = some h' ∧
      (h.refcount = 0 → h'.refcount = 0) ∧
      ((∀ i, e = .call i → s.calls[i]? ≠ some (.free place)) → h'.target = h.target) :=
    ⟨h, hh, id, fun _ => rfl⟩
  cases e with
  | openHandle target collector =>
    exact ⟨h, (List.getElem?_append_left (List.getElem?_eq_some_iff.1 hh).1).trans hh, id,
      fun _ => rfl⟩
  | cloneHandle q | dropHandle q =>
    refine ⟨_, Client.handle_modify hh q _, fun hzero => ?_, fun _ => ?_⟩
    · split <;> exact hzero
    · split <;> rfl
  | clone | drop | finalize => exact hnothing
  | retain q | release q =>
    rw [Sharing.step, Sharing.begin]
    split <;> exact hnothing
  | call i =>
    rw [Sharing.step, Sharing.stepCall]
    cases hi : s.calls[i]? with
    | none => exact hnothing
    | some call =>
      obtain ⟨h', hh', hzero, htarget⟩ :=
        (HandleCall.step_move (hs.placed call (List.mem_of_getElem? hi))).handle hh
      refine ⟨h', hh', hzero, fun he => htarget fun hcall => ?_⟩
      exact he i rfl (hi.trans (congrArg some hcall))

/-- An event that frees no handle takes no open handle. -/
theorem openHandles_step (hs : s.Sound) {e : Event}
    (he : ∀ i place, e = .call i → s.calls[i]? ≠ some (.free place)) :
    s.client.openHandles ≤ (s.step e).client.openHandles := by
  cases e with
  | openHandle => exact Nat.le_succ _
  | cloneHandle | dropHandle | clone | drop | finalize => exact Nat.le_refl _
  | retain q | release q =>
    rw [Sharing.step, Sharing.begin]
    split <;> exact Nat.le_refl _
  | call i =>
    rw [Sharing.step, Sharing.stepCall]
    cases hi : s.calls[i]? with
    | none => exact Nat.le_refl _
    | some call =>
      exact (HandleCall.step_move (hs.placed call (List.mem_of_getElem? hi))).openHandles_le
        fun place hcall => he i place rfl (hi.trans (congrArg some hcall))

theorem refcount_run (hs : s.Sound) {place : Nat} {h : Handle}
    (hh : s.client.handles[place]? = some h) (hzero : h.refcount = 0) {more : List Event}
    (hb : s.BoundedAlong more) :
    ∃ h', (s.run more).client.handles[place]? = some h' ∧ h'.refcount = 0 := by
  induction more generalizing s h with
  | nil => exact ⟨h, hh, hzero⟩
  | cons e more ih =>
    obtain ⟨h', hh', hzero', -⟩ := handle_step hs hh e
    exact ih (hs.step hb.1 e) hh' (hzero' hzero) hb.2

/-- What the step of a call leads to. -/
theorem stepCall_eq {i : Nat} {call : HandleCall} (hi : s.calls[i]? = some call) :
    s.step (.call i) =
      { client := (call.step s.client).client, calls := s.calls.set i (call.step s.client).result,
        deeds := s.deeds ++ call.deeds s.client } := by
  rw [step, stepCall, hi]

/-- Whether an event lets `call` take its step, and it is not refused. -/
def Succeeds (s : Sharing) (e : Event) (call : HandleCall) : Prop :=
  ∃ i next, e = .call i ∧ s.calls[i]? = some call ∧ (s.step e).calls[i]? = some next ∧
    next.isRefused = false

/-- An event is recorded if it lets a call take its step: with what this one does. -/
theorem deeds_step (hs : s.Sound) (e : Event) :
    ((s.step e).deeds = s.deeds ∧ ∀ call, ¬ s.Succeeds e call) ∨
      ∃ call next c' ds, HandleCall.Move s.client call next c' ds ∧
        (s.step e).deeds = s.deeds ++ ds ∧
        ∀ ask, s.Succeeds e ask ↔ call = ask ∧ next.isRefused = false := by
  cases e with
  | openHandle | cloneHandle | dropHandle | clone | drop | finalize =>
    exact .inl ⟨rfl, fun _ ⟨_, _, he, _⟩ => by cases he⟩
  | retain q | release q =>
    refine .inl ⟨?_, fun _ ⟨_, _, he, _⟩ => by cases he⟩
    rw [step, begin]
    split <;> rfl
  | call i =>
    cases hi : s.calls[i]? with
    | none =>
      refine .inl ⟨by rw [step, stepCall, hi], fun call ⟨j, _, he, hcall, _⟩ => ?_⟩
      cases he
      rw [hi] at hcall
      cases hcall
    | some call =>
      have hset : (s.step (.call i)).calls[i]? = some (call.step s.client).result := by
        rw [stepCall_eq hi]
        exact List.getElem?_set_self (List.getElem?_eq_some_iff.1 hi).1
      refine .inr ⟨call, _, _, _, HandleCall.step_move (hs.placed call (List.mem_of_getElem? hi)),
        by rw [stepCall_eq hi], fun ask => ⟨?_, ?_⟩⟩
      · rintro ⟨j, next, he, hask, hnext, hallowed⟩
        cases he
        cases hi.symm.trans hask
        cases hset.symm.trans hnext
        exact ⟨rfl, hallowed⟩
      · rintro ⟨rfl, hallowed⟩
        exact ⟨i, _, rfl, hi, hset, hallowed⟩

/-- A deed that a call `ask` does whenever it is not refused, and that nothing else does, is recorded
whenever such a call succeeds. -/
theorem count_step (hs : s.Sound) (e : Event) {d : Deed} {ask : HandleCall}
    (hcount : ∀ {call next c' ds}, HandleCall.Move s.client call next c' ds →
      ((call = ask ∧ next.isRefused = false) ∧ ds.count d = 1) ∨
        (¬ (call = ask ∧ next.isRefused = false) ∧ ds.count d = 0)) :
    (s.Succeeds e ask ∧ (s.step e).deeds.count d = s.deeds.count d + 1) ∨
      (¬ s.Succeeds e ask ∧ (s.step e).deeds.count d = s.deeds.count d) := by
  rcases deeds_step hs e with ⟨hdeeds, hnot⟩ | ⟨call, next, c', ds, hmove, hdeeds, hiff⟩
  · exact .inr ⟨hnot _, by rw [hdeeds]⟩
  · rw [hdeeds, List.count_append, hiff]
    rcases hcount hmove with ⟨h, hcount⟩ | ⟨h, hcount⟩
    · exact .inl ⟨h, by rw [hcount]⟩
    · exact .inr ⟨h, by rw [hcount, Nat.add_zero]⟩

/-- A call on a released handle is refused and changes nothing. -/
theorem stepCall_released {place i : Nat} {h : Handle} (hh : s.client.handles[place]? = some h)
    (hzero : h.refcount = 0)
    (hi : s.calls[i]? = some (.retain place) ∨ s.calls[i]? = some (.release place)) :
    s.step (.call i) = { s with calls := s.calls.set i (.finished (.error h.released)) } := by
  rcases hi with hi | hi <;>
  · rw [stepCall_eq hi]
    simp [HandleCall.step, HandleCall.deeds, Client.retain, Client.countDown, hh, hzero]

/-- Freeing a handle takes its address away and counts it as released. -/
theorem stepCall_free (hs : s.Sound) {place i : Nat} (hi : s.calls[i]? = some (.free place)) :
    ∃ h, s.client.handles[place]? = some h ∧ h.target.isSome = true ∧
      (s.step (.call i)).client.handles[place]? = some { h with target := none } ∧
      (s.step (.call i)).client.openHandles + 1 = s.client.openHandles := by
  have hlt : place < s.client.handles.length := hs.placed _ (List.mem_of_getElem? hi) place rfl
  have hh : s.client.handles[place]? = some s.client.handles[place] := List.getElem?_eq_getElem hlt
  have htarget : s.client.handles[place].target.isSome = true :=
    Option.isSome_iff_ne_none.2 ((hs.kept place _ hh).target_ne_none (List.mem_of_getElem? hi))
  have hpos : 0 < s.client.openHandles := by
    rw [hs.openHandles]
    exact List.countP_pos_iff.2 ⟨_, List.getElem_mem hlt, htarget⟩
  refine ⟨_, hh, htarget, ?_, ?_⟩
  · rw [stepCall_eq hi]
    simp only [HandleCall.step, Client.free, hh, htarget, if_true, Client.settle]
    exact (List.getElem?_modify_eq _ _ _).trans (congrArg _ hh)
  · rw [stepCall_eq hi]
    simp only [HandleCall.step, Client.free, hh, htarget, if_true, Client.settle]
    exact Nat.sub_add_cancel hpos

end Sharing

/-! ### Calls through a handle -/

namespace RemoteCall

variable {call : RemoteCall} {h : Handle} {σ : Type}

/-- A call through a handle without an address is refused where it is made. -/
theorem make_of_target_none (hcall : call.handle? = some h) (htarget : h.target = none)
    (net : Network σ) (a : Address) (w : σ) : call.make net a w = (.error h.released, w) := by
  have hrefused : h.target? = .error h.released := by rw [Handle.target?, htarget]
  cases call with
  | hello | sum | invoke =>
    cases hcall
    simp only [make, Handle.hello, Handle.sum, Handle.invoke, hrefused]
    rfl
  | _ => cases hcall

theorem posts_send {α : Type} (net : Network σ) (a : Address) (rpc body : String)
    (read : Http.Response → Except Error α) (n : Nat) (w : σ) :
    (Transport.send net.counted a rpc body read (n, w)).2.1 = n + 1 := by
  simp only [Transport.send, Network.counted]
  cases (net.post (a.url rpc) body w).1 <;> rfl

/-- A call through a handle with an address posts one request. -/
theorem posts_make (hcall : call.handle? = some h) {b : Address} (htarget : h.target = some b)
    (net : Network σ) (a : Address) (n : Nat) (w : σ) :
    (call.make net.counted a (n, w)).2.1 = n + 1 := by
  have hallowed : h.target? = .ok b := by rw [Handle.target?, htarget]
  cases call with
  | hello | sum | invoke =>
    cases hcall
    simp only [make, Handle.hello, Handle.sum, Handle.invoke, hallowed, Transport.notify,
      Transport.callFor, posts_send]
  | _ => cases hcall

end RemoteCall

/-! ### The promise -/

namespace Sharing

/-- What a client promises about its handles. -/
structure Counted (s : Sharing) : Prop where
  /-- The record of a handle counts the calls on it that succeed, and nothing else. -/
  recorded : ∀ (e : Event) (place : Nat),
    ((s.Succeeds e (.retain place) ∧ (s.step e).retained place = s.retained place + 1) ∨
      (¬ s.Succeeds e (.retain place) ∧ (s.step e).retained place = s.retained place)) ∧
    ((s.Succeeds e (.release place) ∧ (s.step e).released place = s.released place + 1) ∨
      (¬ s.Succeeds e (.release place) ∧ (s.step e).released place = s.released place))
  /-- A count of references is one and what was taken less what was given back. -/
  references : ∀ (place : Nat) (h : Handle), s.client.handles[place]? = some h →
    h.count + s.released place = 1 + s.retained place
  /-- A count of zero stays, and every later call on the handle is refused and changes nothing. -/
  final : ∀ (place : Nat) (h : Handle), s.client.handles[place]? = some h → h.count = 0 →
    (∀ more : List Event, s.BoundedAlong more →
      ∃ h', (s.run more).client.handles[place]? = some h' ∧ h'.count = 0) ∧
    (∃ reason, h.released = .invalidArgs reason) ∧
    ∀ i : Nat, s.calls[i]? = some (.retain place) ∨ s.calls[i]? = some (.release place) →
      s.step (.call i) = { s with calls := s.calls.set i (.finished (.error h.released)) }
  /-- One release gives the last reference back, and one call frees the handle for it: it is
  still to do so, or it has taken the address away. -/
  once : ∀ (place : Nat) (h : Handle), s.client.handles[place]? = some h →
    s.emptied place = (if h.count = 0 then 1 else 0) ∧
      s.freed place + s.freeing place = s.emptied place ∧
      s.freed place = if h.target.isNone then 1 else 0
  /-- Freeing a handle takes its address and one open handle, and the call succeeds. -/
  frees : ∀ i place : Nat, s.calls[i]? = some (.free place) →
    (s.step (.call i)).calls = s.calls.set i (.finished (.ok ())) ∧
    ∃ h, s.client.handles[place]? = some h ∧ h.target.isSome = true ∧
      (s.step (.call i)).client.handles[place]? = some { h with target := none } ∧
      (s.step (.call i)).client.openHandles + 1 = s.client.openHandles
  /-- Nothing else takes an address or an open handle. -/
  keeps : ∀ e : Event, (∀ i place, e = .call i → s.calls[i]? ≠ some (.free place)) →
    s.client.openHandles ≤ (s.step e).client.openHandles ∧
      ∀ (place : Nat) (h : Handle), s.client.handles[place]? = some h →
        ∃ h' : Handle, (s.step e).client.handles[place]? = some h' ∧ h'.target = h.target
  /-- The open handles are those with an address. -/
  openHandles : s.client.openHandles = s.client.handles.countP fun h => h.target.isSome
  /-- While no call is under way, they are those with references, and only calls through the others
  are refused without a request being sent. -/
  idle : (∀ call ∈ s.calls, call.isDone = true) →
    s.client.openHandles = s.client.handles.countP (fun h => 0 < h.count) ∧
    ∀ (place : Nat) (h : Handle), s.client.handles[place]? = some h →
      ∀ call : RemoteCall, call.handle? = some h →
      ∀ (σ : Type) (net : Network σ) (a : Address) (n : Nat) (w : σ),
      (call.make net.counted a (n, w) = (.error h.released, (n, w)) ↔ h.count = 0) ∧
        (h.count ≠ 0 → (call.make net.counted a (n, w)).2.1 = n + 1)

variable {s : Sharing}

theorem count_eq_zero_iff {h : Handle} : h.count = 0 ↔ h.refcount = 0 :=
  ⟨fun hzero => UInt64.toNat_inj.1 hzero, fun hzero => congrArg UInt64.toNat hzero⟩

/-- While no call is under way, the handles without references are those without an address. -/
theorem Kept.target_iff {place : Nat} {h : Handle} (hk : s.Kept place h)
    (hdone : ∀ call ∈ s.calls, call.isDone = true) : h.target = none ↔ h.count = 0 := by
  have hfreeing : s.freeing place = 0 := by
    refine List.sum_eq_zero fun n hn => ?_
    obtain ⟨call, hcall, rfl⟩ := List.mem_map.1 hn
    cases call with
    | finished => rfl
    | _ => cases hdone _ hcall
  have hfreed := hk.freed
  have hemptied := hk.emptied
  have hsum := hk.freeing
  rw [count_eq_zero_iff]
  rw [hfreeing, hfreed, hemptied, Nat.add_zero] at hsum
  constructor
  · intro htarget
    rw [htarget, Option.isNone_none, if_pos rfl] at hsum
    by_contra hzero
    rw [if_neg hzero] at hsum
    cases hsum
  · intro hzero
    rw [if_pos hzero] at hsum
    by_contra htarget
    rw [if_neg (by simpa using htarget)] at hsum
    cases hsum

theorem Sound.counted (hs : s.Sound) : s.Counted where
  recorded e place :=
    ⟨count_step hs e fun hmove => hmove.count_retained place,
      count_step hs e fun hmove => hmove.count_released place⟩
  references place h hh := (hs.kept place h hh).counted
  final place h hh hzero := by
    have hzero := count_eq_zero_iff.1 hzero
    refine ⟨fun more hb => ?_, ⟨_, rfl⟩, fun i hi => stepCall_released hh hzero hi⟩
    obtain ⟨h', hh', hzero'⟩ := refcount_run hs hh hzero hb
    exact ⟨h', hh', count_eq_zero_iff.2 hzero'⟩
  once place h hh := by
    have hk := hs.kept place h hh
    refine ⟨?_, hk.freeing, hk.freed⟩
    simp only [count_eq_zero_iff]
    exact hk.emptied
  frees i place hi := ⟨by rw [stepCall_eq hi]; rfl, stepCall_free hs hi⟩
  keeps e he := by
    refine ⟨openHandles_step hs he, fun place h hh => ?_⟩
    obtain ⟨h', hh', -, htarget⟩ := handle_step hs hh e
    exact ⟨h', hh', htarget fun i => he i place⟩
  openHandles := hs.openHandles
  idle hdone := by
    have htarget : ∀ (place : Nat) (h : Handle), s.client.handles[place]? = some h →
        (h.target = none ↔ h.count = 0) :=
      fun place h hh => (hs.kept place h hh).target_iff hdone
    refine ⟨?_, fun place h hh call hcall σ net a n w => ?_⟩
    · rw [hs.openHandles]
      refine List.countP_congr fun h hmem => ?_
      obtain ⟨place, hh⟩ := List.mem_iff_getElem?.1 hmem
      rw [decide_eq_true_iff, Nat.pos_iff_ne_zero, Option.isSome_iff_ne_none]
      exact not_congr (htarget place h hh)
    · cases ht : h.target with
      | none =>
        have hzero := (htarget place h hh).1 ht
        have hrefused := RemoteCall.make_of_target_none hcall ht net.counted a (n, w)
        exact ⟨⟨fun _ => hzero, fun _ => hrefused⟩, fun hne => absurd hzero hne⟩
      | some b =>
        have hne : h.count ≠ 0 := fun hzero => by
          rw [(htarget place h hh).2 hzero] at ht
          cases ht
        have hposts := RemoteCall.posts_make hcall ht net a n w
        refine ⟨⟨fun hrefused => ?_, fun hzero => absurd hzero hne⟩, fun _ => hposts⟩
        rw [hrefused] at hposts
        exact absurd hposts (Nat.ne_of_lt (Nat.lt_succ_self n))

/-! ### Short schedules -/

theorem bounded_of_length (h : s.deeds.length < UInt64.size - 2) : s.Bounded := by
  intro place
  have : s.retained place ≤ s.deeds.length := List.count_le_length
  omega

theorem length_deeds_step (s : Sharing) (e : Event) :
    (s.step e).deeds.length ≤ s.deeds.length + 2 := by
  cases e with
  | openHandle | cloneHandle | dropHandle | clone | drop | finalize => exact Nat.le_add_right _ _
  | retain q | release q =>
    rw [step, begin]
    split <;> exact Nat.le_add_right _ _
  | call i =>
    rw [step, stepCall]
    cases s.calls[i]? with
    | none => exact Nat.le_add_right _ _
    | some call =>
      have hdeeds : (call.deeds s.client).length ≤ 2 := by
        unfold HandleCall.deeds
        split <;> (try split) <;> (try split) <;> simp
      dsimp only
      rw [List.length_append]
      exact Nat.add_le_add_left hdeeds _

/-- No schedule that could ever be worked off lets a handle have too many references. -/
theorem boundedAlong_of_length {schedule : List Event}
    (h : s.deeds.length + 2 * schedule.length < UInt64.size - 2) : s.BoundedAlong schedule := by
  induction schedule generalizing s with
  | nil => exact bounded_of_length h
  | cons e schedule ih =>
    have hstep := s.length_deeds_step e
    rw [List.length_cons] at h
    exact ⟨bounded_of_length (by omega), ih (by omega)⟩

/-- **The handles of a client are counted right**, however many threads share them and however
their steps follow one another, as long as no handle has too many references to count. -/
theorem run_counted {schedule : List Event} (h : BoundedAlong {} schedule) :
    (run {} schedule).Counted :=
  (sound_start.run h).counted

/-- Two handles on one collector. The first is released once too often, while the call that has
given its last reference back is still to free it. -/
def overreleased : List Event :=
  [.openHandle ⟨"http://127.0.0.1:8090", 0⟩ ⟨.replicate 16 7, rfl⟩,
    .openHandle ⟨"http://127.0.0.1:8090", 0⟩ ⟨.replicate 16 7, rfl⟩,
    .retain 0, .call 0, .release 0, .release 0, .call 1, .call 2, .release 0, .retain 0, .call 3,
    .call 4]

/-- Both late calls are refused, and both handles are still counted as open. -/
theorem run_counted_overreleased :
    BoundedAlong {} overreleased ∧ (run {} overreleased).Counted ∧
      (run {} overreleased).client.openHandles = 2 ∧
      (run {} overreleased).client.handles.map Handle.count = [0, 1] ∧
      (run {} overreleased).emptied 0 = 1 ∧ (run {} overreleased).freed 0 = 0 ∧
      (run {} (overreleased ++ [.call 2])).client.openHandles = 1 := by
  have hbounded : BoundedAlong {} overreleased := boundedAlong_of_length (by decide)
  exact ⟨hbounded, run_counted hbounded, rfl, rfl, rfl, rfl, rfl⟩

end Sharing
end Collectors
