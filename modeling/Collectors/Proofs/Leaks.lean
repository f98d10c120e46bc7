import Collectors.Proofs.Usage

/-!
# Leak warnings tell the truth

A client is alive as long as something refers to it. When it goes is told by what is done to it
(`Usage.Sound.goes`), and it never comes back (`Usage.Sound.isAlive_step`): that is why it says at
most once that it went (`Usage.Parted`). `Usage.Sound.warnings_step` says what is warned of in every
step, and `Usage.run_truthful` puts everything together.
-/

namespace Collectors
namespace Usage

variable {u : Usage} {a : Act} {h : Handle}

/-! ### The end of a client -/

/-- Only what drops an object or gives a reference back takes something away from what refers to a
client. -/
theorem references_le (hp : a.isPossible u.client = true) (hdrop : a ≠ .drop)
    (hfinalize : a ≠ .finalize) (hdropHandle : ∀ place, a ≠ .dropHandle place)
    (hrelease : ∀ place, a ≠ .release place) :
    u.client.references ≤ (u.client.act a).client.references := by
  obtain ⟨hplace, hpos⟩ | ⟨place, h, hplace, found, hpos⟩ := isPossible_cases hp
  · cases a with
    | clone => exact Nat.add_le_add_right (Nat.le_succ _) _
    | openHandle target collector =>
      refine Nat.add_le_add_left ?_ _
      simp only [Client.act, Client.openHandle, List.countP_append]
      exact Nat.le_add_right _ _
    | drop => exact absurd rfl hdrop
    | finalize => exact absurd rfl hfinalize
    | _ => cases hplace
  · obtain ⟨h', hmove, hclient, -⟩ := Client.act_handle hplace found
    rw [hclient]
    refine Client.references_put_le found fun hholds => ?_
    generalize (u.client.act a).result = r at hmove
    cases hmove with
    | cloned =>
      rw [Handle.holds, Bool.and_eq_true] at hholds ⊢
      exact ⟨hholds.1, decide_eq_true (Nat.succ_pos _)⟩
    | dropped => exact absurd rfl (hdropHandle place)
    | released | emptied => exact absurd rfl (hrelease place)
    | retained | refused => exact hholds

/-- A client that is gone never comes back: whatever is left of its handles is released. -/
theorem Sound.isAlive_step (hs : u.Sound) (hdead : u.isAlive = false) (a : Act) :
    (u.step a).isAlive = false := by
  have hreferences := hs.isAlive_eq_false_iff.1 hdead
  obtain ⟨hobjects, hnone⟩ := Nat.add_eq_zero_iff.1 hreferences
  by_cases hp : a.isPossible u.client = true
  case neg =>
    rw [Usage.step, if_neg hp]
    exact hdead
  refine (hs.step a).isAlive_eq_false_iff.2 ?_
  rw [step_of_isPossible hp]
  -- There is no client object, and whoever still has hold of a handle has a released one.
  obtain ⟨-, hpos⟩ | ⟨place, h, hplace, found, hpos⟩ := isPossible_cases hp
  · omega
  · obtain ⟨h', hmove, hclient, -⟩ := Client.act_handle hplace found
    have hholds : h.holds = false := by
      simpa using List.countP_eq_zero.1 hnone h (List.mem_of_getElem? found)
    have htarget : h.target = none := by
      rw [Handle.holds, decide_eq_true hpos, Bool.and_true] at hholds
      exact Option.not_isSome_iff_eq_none.1 (by simp [hholds])
    have hholds' : h'.holds = false := by
      have htarget' : h'.target = none := by
        generalize (u.client.act a).result = r at hmove
        cases hmove with
        | emptied => rfl
        | _ => exact htarget
      rw [Handle.holds, htarget']
      rfl
    have hset := @Client.references_set u.client (u.client.put place h h') place h found h' rfl rfl
    rw [hholds, hholds', hreferences] at hset
    rw [hclient]
    exact hset

theorem Sound.isAlive_run (hs : u.Sound) (hdead : u.isAlive = false) (acts : List Act) :
    (u.run acts).isAlive = false := by
  induction acts generalizing u with
  | nil => exact hdead
  | cons a acts ih => exact ih (hs.step a) (hs.isAlive_step hdead a)

/-! ### Warnings -/

/-- What is warned of when something is done. -/
theorem act_warnings (hp : a.isPossible u.client = true) :
    (u.client.act a).warnings =
      (if a = .finalize ∧ u.client.openHandles ≠ 0 then
        [.finalizedWithOpenHandles u.client.openHandles] else []) ++
      (Client.settle () u.client (u.client.act a).client).warnings := by
  obtain ⟨hplace, -⟩ | ⟨place, h, hplace, found, -⟩ := isPossible_cases hp
  · cases a with
    | clone | openHandle =>
      rw [if_neg (by simp), Client.settle_warnings_of_le]
      · rfl
      · exact references_le hp (by simp) (by simp) (by simp) (by simp)
    | drop =>
      rw [if_neg (by simp)]
      rfl
    | finalize =>
      -- A client that was finalized goes without a word.
      have hsilent : (Client.settle () u.client (u.client.act .finalize).client).warnings = [] :=
        if_neg fun h => h.2.2.1 rfl
      rw [hsilent, List.append_nil]
      by_cases hopen : u.client.openHandles = 0
      · rw [if_neg fun h => h.2 hopen]
        exact (if_pos hopen).trans hsilent
      · rw [if_pos ⟨rfl, hopen⟩]
        exact (if_neg hopen).trans (congrArg _ hsilent)
    | _ => cases hplace
  · obtain ⟨h', -, hclient, hwarnings⟩ := Client.act_handle hplace found
    have hne : a ≠ .finalize := fun heq => by
      rw [heq] at hplace
      cases hplace
    rw [if_neg fun h => hne h.1, hclient, hwarnings]
    rfl

/-- Everything that there is to warn of is warned of, and nothing else. -/
theorem Sound.warnings_step (hs : u.Sound) (hp : a.isPossible u.client = true) :
    (u.client.act a).warnings = u.due a := by
  have hclient : (u.client.act a).client = (u.step a).client := by rw [step_of_isPossible hp]; rfl
  have hnext := hs.step a
  have hopened := hs.openHandles_add
  rw [act_warnings hp, hclient, due]
  congr 1
  · have hopen : u.client.openHandles = u.opened - u.released := by omega
    rw [← hopen]
    refine if_congr (and_congr_right fun _ => ?_) rfl rfl
    omega
  · have hfinalized : ¬ (u.step a).client.finalized = true ↔ (u.step a).times .finalize = 0 := by
      rw [hnext.finalized, decide_eq_true_eq, Nat.pos_iff_ne_zero, not_not]
    rw [Client.settle]
    dsimp only
    by_cases hdead : (u.step a).client.references = 0
    · rw [hnext.openHandles_eq_lost hdead]
      refine if_congr (and_congr hs.isAlive_iff.symm (and_congr ?_ (and_congr_left' hfinalized)))
        rfl rfl
      rw [hnext.isAlive_iff, hdead]
      simp
    · have halive := hnext.isAlive_iff.2 (Nat.pos_of_ne_zero hdead)
      rw [if_neg fun h => hdead h.2.1, if_neg fun h => h.2.1 halive]

theorem Sound.warnings_eq (hs : u.Sound) (hp : a.isPossible u.client = true) :
    (u.step a).warnings = u.warnings ++ u.due a := by
  rw [step_of_isPossible hp, warnings_after, hs.warnings_step hp]

theorem farewells_due : (u.due a).countP Warning.isFarewell =
    if u.isAlive ∧ ¬ (u.step a).isAlive ∧ (u.step a).times .finalize = 0 ∧ (u.step a).lost ≠ 0
    then 1 else 0 := by
  rw [due, List.countP_append]
  split <;> split <;> rfl

/-- Once a client has said that it went, it is gone. -/
def Parted (u : Usage) : Prop := u.farewells ≤ if u.isAlive then 0 else 1

theorem Parted.step (h : u.Parted) (hs : u.Sound) (a : Act) :
    (u.step a).Parted ∧ (u.isAlive = false → (u.step a).farewells = u.farewells) := by
  by_cases hp : a.isPossible u.client = true
  case neg =>
    rw [Usage.step, if_neg hp]
    exact ⟨h, fun _ => rfl⟩
  have hfarewells : (u.step a).farewells = u.farewells + (u.due a).countP Warning.isFarewell := by
    rw [farewells, hs.warnings_eq hp, List.countP_append, farewells]
  rw [farewells_due] at hfarewells
  rw [Parted] at h ⊢
  -- A farewell is due only if the client was alive before and is not afterwards.
  cases halive : u.isAlive with
  | true =>
    refine ⟨?_, fun hdead => by cases hdead⟩
    rw [halive, if_pos rfl] at h
    cases hnext : (u.step a).isAlive with
    | true =>
      rw [if_neg fun h => h.2.1 hnext] at hfarewells
      rw [if_pos rfl]
      omega
    | false =>
      rw [if_neg Bool.false_ne_true]
      split at hfarewells <;> omega
  | false =>
    rw [halive, if_neg Bool.false_ne_true] at h
    rw [if_neg fun h => by simp [halive] at h, Nat.add_zero] at hfarewells
    rw [hs.isAlive_step halive, if_neg Bool.false_ne_true, hfarewells]
    exact ⟨h, fun _ => rfl⟩

theorem Parted.run (h : u.Parted) (hs : u.Sound) (acts : List Act) :
    (u.run acts).Parted ∧ (u.isAlive = false → (u.run acts).farewells = u.farewells) := by
  induction acts generalizing u with
  | nil => exact ⟨h, fun _ => rfl⟩
  | cons a acts ih =>
    obtain ⟨hstep, hsame⟩ := h.step hs a
    obtain ⟨hrun, hrest⟩ := ih hstep (hs.step a)
    exact ⟨hrun, fun hdead => (hrest (hs.isAlive_step hdead a)).trans (hsame hdead)⟩

/-! ### A handle that is held -/

/-- A client is alive as long as an object of a handle is held. -/
theorem Sound.isAlive_of_holds (hs : u.Sound) (hmem : h ∈ u.client.handles)
    (hholds : h.holds = true) : u.isAlive = true :=
  hs.isAlive_iff.2 (Nat.add_pos_right _ (List.countP_pos_iff.2 ⟨h, hmem, hholds⟩))

/-- While a handle is held, dropping a client object does no more than that. -/
theorem Sound.step_drop (hs : u.Sound) (hmem : h ∈ u.client.handles) (hholds : h.holds = true) :
    (u.step .drop).objects = u.objects - 1 ∧ (u.step .drop).warnings = u.warnings ∧
      (u.step .drop).client.openHandles = u.client.openHandles ∧
      (u.step .drop).client.handles = u.client.handles := by
  by_cases hp : Act.isPossible .drop u.client = true
  · have hclient : (u.step .drop).client = { u.client with objects := u.client.objects - 1 } := by
      rw [step_of_isPossible hp]
      rfl
    have hmem' : h ∈ (u.step .drop).client.handles := by rwa [hclient]
    have halive := (hs.step .drop).isAlive_of_holds hmem' hholds
    refine ⟨?_, ?_, ?_, ?_⟩
    · rw [← (hs.step .drop).objects_eq, hclient, ← hs.objects_eq]
    · rw [hs.warnings_eq hp, due, if_neg fun h => by simp at h, if_neg fun h => h.2.1 halive]
      simp
    · rw [hclient]
    · rw [hclient]
  · have hnone : u.objects = 0 := by
      rw [← hs.objects_eq]
      simpa [Act.isPossible, Act.place?] using hp
    rw [Usage.step, if_neg hp, hnone]
    exact ⟨rfl, rfl, rfl, rfl⟩

/-- So does dropping any number of them. -/
theorem Sound.run_drops (hs : u.Sound) (hmem : h ∈ u.client.handles) (hholds : h.holds = true)
    (n : Nat) :
    (u.run (List.replicate n .drop)).objects = u.objects - n ∧
      (u.run (List.replicate n .drop)).warnings = u.warnings ∧
      (u.run (List.replicate n .drop)).client.openHandles = u.client.openHandles ∧
      (u.run (List.replicate n .drop)).client.handles = u.client.handles := by
  induction n generalizing u with
  | zero => exact ⟨rfl, rfl, rfl, rfl⟩
  | succ n ih =>
    obtain ⟨hobjects, hwarnings, hopen, hhandles⟩ := hs.step_drop hmem hholds
    obtain ⟨hobjects', hwarnings', hopen', hhandles'⟩ := ih (hs.step .drop) (hhandles ▸ hmem)
    rw [hobjects, Nat.sub_sub, Nat.add_comm 1] at hobjects'
    exact ⟨hobjects', hwarnings'.trans hwarnings, hopen'.trans hopen, hhandles'.trans hhandles⟩

/-! ### The truth -/

/-- What is true of a client in use. -/
structure Truthful (u : Usage) : Prop where
  /-- There are the objects that there should be. -/
  objects : u.client.objects = u.objects
  /-- There are the handles that were opened, with their objects and their references. -/
  handles : u.client.handles.length = u.opened ∧
    ∀ (place : Nat) (h : Handle), u.client.handles[place]? = some h →
      h.objects = u.handleObjects place ∧ h.count = u.references place % UInt64.size ∧
        u.references place ≤ UInt64.size
  /-- The open handles are those opened and not released, whatever objects there still are. -/
  openHandles : u.client.openHandles + u.released = u.opened
  /-- Whatever is done, there is a warning of what there is to warn of and of nothing else, and who
  finalizes the client is told the number of open handles. -/
  warned : ∀ a : Act, a.isPossible u.client = true →
    ∃ r, (u.step a).past = u.past ++ [{ act := a, result := r, warnings := u.due a }] ∧
      (a = .finalize → r = .ok (some (u.opened - u.released)))
  /-- The client goes when something is dropped, released or finalized. -/
  goes : ∀ a : Act, u.isAlive = true → (u.step a).isAlive = false →
    a = .drop ∨ a = .finalize ∨ (∃ place, a = .dropHandle place) ∨ ∃ place, a = .release place
  /-- It goes once, and is not heard of again. -/
  gone : u.isAlive = false → ∀ acts : List Act,
    (u.run acts).isAlive = false ∧ (u.run acts).farewells = u.farewells
  /-- It says at most once that it went, and not before. -/
  once : u.farewells ≤ if u.isAlive then 0 else 1
  /-- A handle that is held goes on working when client objects are dropped, and nothing is said. -/
  held : ∀ place < u.opened, u.isHeld place = true →
    (∀ n : Nat, let v := u.run (List.replicate n .drop)
      v.objects = u.objects - n ∧ v.warnings = u.warnings ∧
        v.client.openHandles = u.client.openHandles ∧ v.client.handles = u.client.handles) ∧
    ∃ h : Handle, u.client.handles[place]? = some h ∧
      ∀ call : RemoteCall, call.handle? = some h →
        ∀ (σ : Type) (net : Network σ) (a : Address) (n : Nat) (w : σ),
          (call.make net.counted a (n, w)).2.1 = n + 1

theorem Sound.goes (hs : u.Sound) (halive : u.isAlive = true)
    (hdead : (u.step a).isAlive = false) :
    a = .drop ∨ a = .finalize ∨ (∃ place, a = .dropHandle place) ∨
      ∃ place, a = .release place := by
  by_contra hnot
  simp only [not_or, not_exists] at hnot
  obtain ⟨hdrop, hfinalize, hdropHandle, hrelease⟩ := hnot
  have hp : a.isPossible u.client = true := by
    by_contra hp
    rw [Usage.step, if_neg hp, halive] at hdead
    cases hdead
  have hle := references_le hp hdrop hfinalize hdropHandle hrelease
  have hpos := hs.isAlive_iff.1 halive
  have hzero := (hs.step a).isAlive_eq_false_iff.1 hdead
  rw [step_of_isPossible hp] at hzero
  exact absurd hzero (Nat.ne_of_gt (Nat.lt_of_lt_of_le hpos hle))

theorem Sound.truthful (hs : u.Sound) (hparted : u.Parted) : u.Truthful where
  objects := hs.objects_eq
  handles := ⟨hs.opened, fun place h found =>
    let hk := hs.kept place h found
    ⟨hk.objects_eq, hk.counted, hk.bounded⟩⟩
  openHandles := hs.openHandles_add
  warned a hp := by
    refine ⟨(u.client.act a).result, ?_, ?_⟩
    · rw [step_of_isPossible hp, hs.warnings_step hp]
      rfl
    · rintro rfl
      have hopened := hs.openHandles_add
      have hopen : u.client.openHandles = u.opened - u.released := by omega
      rw [← hopen]
      rfl
  goes a := hs.goes
  gone hdead acts := ⟨hs.isAlive_run hdead acts, (hparted.run hs acts).2 hdead⟩
  once := hparted
  held place hlt hheld := by
    have found := List.getElem?_eq_getElem (hs.opened ▸ hlt)
    have hk := hs.kept place _ found
    rw [hk.isHeld] at hheld
    refine ⟨hs.run_drops (List.mem_of_getElem? found) hheld, _, found, ?_⟩
    intro call hcall σ net a n w
    have hsome := (Bool.and_eq_true_iff.1 hheld).1
    obtain ⟨b, htarget⟩ := Option.isSome_iff_exists.1 hsome
    exact RemoteCall.posts_make hcall htarget net a n w

/-- **A client tells the truth about its handles**, whatever is done with it and with them. -/
theorem run_truthful (acts : List Act) : (run {} acts).Truthful := by
  have hparted : Parted {} := Nat.zero_le _
  exact (sound_start.run acts).truthful (hparted.run sound_start acts).1

/-- The client goes with the release of a handle, after the other one was lost. -/
example :
    let a : Address := ⟨"http://127.0.0.1:8090", 0⟩
    let id : CollectorId := ⟨.replicate 16 7, rfl⟩
    (run {} [.openHandle a id, .openHandle a id, .drop, .dropHandle 0, .release 1]).warnings =
      [.droppedWithOpenHandles 1] := by decide

end Usage
end Collectors
