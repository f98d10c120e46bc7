import Collectors.Client.Usage
import Collectors.Proofs.Sharing

/-!
# A client in use and its record

`Act.Move` says everything that an act can do to a handle, and `Client.act_handle` that every act on
a handle does one of these. `Usage.Sound` relates a client in use to the record of what was done
with it: `Usage.Sound.step` keeps it, and so does every run.

What the record says is then what is so: of the objects, of the handles that are held or lost, and
of whether the client is alive.
-/

namespace Collectors

namespace Client

variable {c c' : Client} {place : Nat} {h : Handle}

/-! ### What refers to a client -/

/-- A change of one handle makes the difference that the handle makes. -/
theorem references_set (found : c.handles[place]? = some h) (h' : Handle)
    (hhandles : c'.handles = c.handles.set place h') (hobjects : c'.objects = c.objects) :
    c'.references + (if h.holds then 1 else 0) = c.references + if h'.holds then 1 else 0 := by
  have hset := countP_set Handle.holds found h'
  rw [references, references, hhandles, hobjects]
  omega

/-- Nothing is said of a client that is referred to no less than before. -/
theorem settle_warnings_of_le (h : c.references ≤ c'.references) :
    (settle () c c').warnings = [] :=
  if_neg fun ⟨hbefore, hafter, _⟩ => absurd hafter (Nat.ne_of_gt (Nat.lt_of_lt_of_le hbefore h))

end Client

/-! ### What is done to a handle -/

/-- What an act does to a handle, and what the one who does it is told. -/
inductive Act.Move (place : Nat) (h : Handle) :
    Act → Handle → Except Error (Option Nat) → Prop where
  | cloned : Move place h (.cloneHandle place) { h with objects := h.objects + 1 } (.ok none)
  | dropped : Move place h (.dropHandle place) { h with objects := h.objects - 1 } (.ok none)
  | retained (alive : h.refcount ≠ 0) :
      Move place h (.retain place) { h with refcount := h.refcount + 1 } (.ok none)
  | released (alive : h.refcount ≠ 0) (more : h.refcount ≠ 1) :
      Move place h (.release place) { h with refcount := h.refcount - 1 } (.ok none)
  | emptied (last : h.refcount = 1) :
      Move place h (.release place) { h with refcount := 0, target := none } (.ok none)
  | refused {a} (asked : a = .retain place ∨ a = .release place) (dead : h.refcount = 0) :
      Move place h a h (.error h.released)

/-- The open handles after an act that left a handle as `h'`. -/
def Client.openBehind (c : Client) (h h' : Handle) : Nat :=
  if h.target.isSome && h'.target.isNone then c.openHandles - 1 else c.openHandles

namespace Client

variable {c : Client} {a : Act} {place : Nat} {h : Handle}

theorem modify_eq (found : c.handles[place]? = some h) (f : Handle → Handle) :
    c.modify place f = { c with handles := c.handles.set place (f h) } := by
  rw [← handles_modify found]
  rfl

theorem openBehind_self (c : Client) {h h' : Handle} (htarget : h'.target = h.target) :
    c.openBehind h h' = c.openHandles := by
  rw [openBehind, htarget]
  cases h.target <;> rfl

/-- The client after an act that left the handle at a place as `h'`. -/
def put (c : Client) (place : Nat) (h h' : Handle) : Client :=
  { c with handles := c.handles.set place h', openHandles := c.openBehind h h' }

theorem modify_eq_put (found : c.handles[place]? = some h) {f : Handle → Handle}
    (htarget : (f h).target = h.target) : c.modify place f = c.put place h (f h) := by
  rw [modify_eq found, put, openBehind_self c htarget]

theorem put_self (found : c.handles[place]? = some h) : c.put place h h = c := by
  obtain ⟨hlt, hh⟩ := List.getElem?_eq_some_iff.1 found
  rw [put, openBehind_self c rfl, ← hh, List.set_getElem_self]

/-- Freeing a handle, whether or not it still has its address. -/
theorem free_eq (found : c.handles[place]? = some h) :
    c.free place =
      { result := (), client := c.put place h { h with target := none }
        warnings := (settle () c (c.put place h { h with target := none })).warnings } := by
  rw [free, found]
  dsimp only
  cases htarget : h.target with
  | some a =>
    rw [Option.isSome_some, if_pos rfl, put, openBehind, htarget, modify_eq found]
    rfl
  | none =>
    have hself : ({ h with target := none } : Handle) = h := by rw [← htarget]
    rw [hself, put_self found, settle_warnings_of_le (Nat.le_refl _)]
    rfl

/-- Giving one reference back, with all that it leads to. -/
theorem release_cases (found : c.handles[place]? = some h) :
    (h.refcount = 0 ∧ c.release place = { result := .error h.released, client := c }) ∨
    (h.refcount ≠ 0 ∧ h.refcount ≠ 1 ∧ c.release place =
      { result := .ok (), client := c.put place h { h with refcount := h.refcount - 1 } }) ∨
    (h.refcount = 1 ∧
      let after := c.put place h { h with refcount := 0, target := none }
      c.release place =
        { result := .ok (), client := after, warnings := (settle () c after).warnings }) := by
  by_cases hzero : h.refcount = 0
  · refine .inl ⟨hzero, ?_⟩
    simp only [release, HandleCall.step, countDown, found, hzero, if_true]
  by_cases hone : h.refcount = 1
  · refine .inr (.inr ⟨hone, ?_⟩)
    -- The count is at zero while the handle still has its address.
    let left : Handle := { h with refcount := 0 }
    let between : Client := { c with handles := c.handles.set place left }
    have hcount : c.countDown place = .ok (true, between) := by
      simp only [countDown, found, hone, modify_eq found]
      rfl
    have hbetween : between.handles[place]? = some left :=
      List.getElem?_set_self (List.getElem?_eq_some_iff.1 found).1
    have hsame : between.references = c.references :=
      Nat.add_right_cancel (references_set found left rfl rfl)
    have hput : between.put place left { left with target := none } =
        c.put place h { left with target := none } := by
      simp only [put, between, List.set_set]
      rfl
    simp only [release, HandleCall.step, hcount, free_eq hbetween, hput, settle, hsame,
      List.nil_append]
    rfl
  · refine .inr (.inl ⟨hzero, hone, ?_⟩)
    have hput : c.modify place (fun h => { h with refcount := h.refcount - 1 }) =
        c.put place h { h with refcount := h.refcount - 1 } := modify_eq_put found rfl
    simp only [release, HandleCall.step, countDown, found, hzero, hone, if_false, decide_false,
      hput]

theorem references_put_le (found : c.handles[place]? = some h) {h' : Handle}
    (hholds : h.holds = true → h'.holds = true) : c.references ≤ (c.put place h h').references := by
  have hreferences := @references_set c (c.put place h h') place h found h' rfl rfl
  split at hreferences
  · rename_i hold
    rw [if_pos (hholds hold)] at hreferences
    omega
  · omega

/-- Nothing is said as long as the handle keeps the client alive. -/
theorem settle_put (found : c.handles[place]? = some h) {h' : Handle}
    (hholds : h.holds = true → h'.holds = true) : (settle () c (c.put place h h')).warnings = [] :=
  settle_warnings_of_le (references_put_le found hholds)

/-- Every act on a handle is a move of it, and something is said of it if the client goes. -/
theorem act_handle (ha : a.place? = some place) (found : c.handles[place]? = some h) :
    ∃ h', a.Move place h h' (c.act a).result ∧ (c.act a).client = c.put place h h' ∧
      (c.act a).warnings = (settle () c (c.put place h h')).warnings := by
  cases a with
  | cloneHandle q =>
    cases ha
    refine ⟨_, .cloned, modify_eq_put found rfl, Eq.symm (settle_put found fun hholds => ?_)⟩
    rw [Handle.holds, Bool.and_eq_true] at hholds ⊢
    exact ⟨hholds.1, decide_eq_true (Nat.succ_pos _)⟩
  | dropHandle q =>
    cases ha
    have hput : c.modify place (fun h => { h with objects := h.objects - 1 }) =
        c.put place h { h with objects := h.objects - 1 } := modify_eq_put found rfl
    exact ⟨_, .dropped, hput, by rw [← hput]; rfl⟩
  | retain q =>
    cases ha
    by_cases hzero : h.refcount = 0
    · have hact : c.act (.retain place) = { result := .error h.released, client := c } := by
        simp only [act, retain, found, hzero, if_true]
      rw [hact]
      exact ⟨h, .refused (.inl rfl) hzero, (put_self found).symm, (settle_put found id).symm⟩
    · have hput : c.modify place (fun h => { h with refcount := h.refcount + 1 }) =
          c.put place h { h with refcount := h.refcount + 1 } := modify_eq_put found rfl
      have hact : c.act (.retain place) =
          { result := .ok none
            client := c.put place h { h with refcount := h.refcount + 1 } } := by
        simp only [act, retain, found, hzero, if_false, hput]
      rw [hact]
      exact ⟨_, .retained hzero, rfl, Eq.symm (settle_put found fun hh => hh)⟩
  | release q =>
    cases ha
    obtain ⟨hzero, hrelease⟩ | ⟨hzero, hone, hrelease⟩ | ⟨hone, hrelease⟩ := release_cases found
    · rw [act, hrelease]
      exact ⟨h, .refused (.inr rfl) hzero, (put_self found).symm, (settle_put found id).symm⟩
    · rw [act, hrelease]
      exact ⟨_, .released hzero hone, rfl, Eq.symm (settle_put found fun hh => hh)⟩
    · rw [act, hrelease]
      exact ⟨_, .emptied hone, rfl, rfl⟩
  | _ => cases ha

end Client

namespace Usage

variable {u : Usage} {a b : Act} {c : Client} {d : Act.Done} {place : Nat} {h h' : Handle}

/-! ### The record -/

theorem step_of_isPossible (hp : a.isPossible u.client = true) :
    u.step a = u.after (u.client.act a).client
      { act := a, result := (u.client.act a).result, warnings := (u.client.act a).warnings } :=
  if_pos hp

theorem times_after : (u.after c d).times b =
    u.times b + if d.act = b ∧ d.result.isOk = true then 1 else 0 := by
  rw [times, times, after, List.countP_append, List.countP_singleton]
  simp only [Bool.and_eq_true, decide_eq_true_eq]

theorem times_after_self (hact : d.act = b) (hok : d.result.isOk = true) :
    (u.after c d).times b = u.times b + 1 := by
  rw [times_after, if_pos ⟨hact, hok⟩]

theorem times_after_of_ne (hne : d.act ≠ b) : (u.after c d).times b = u.times b := by
  rw [times_after, if_neg fun h => hne h.1, Nat.add_zero]

theorem times_after_of_error (herror : d.result.isOk = false) :
    (u.after c d).times b = u.times b := by
  rw [times_after, if_neg fun h => by simp [herror] at h, Nat.add_zero]

theorem opened_after : (u.after c d).opened = u.opened + if d.act.opens then 1 else 0 := by
  rw [opened, opened, after, List.countP_append, List.countP_singleton]

theorem warnings_after : (u.after c d).warnings = u.warnings ++ d.warnings := by
  rw [warnings, warnings, after, List.flatMap_append, List.flatMap_singleton]

/-! ### One handle and its record -/

/-- What the record says of the handle at a place. The references are counted in a machine word,
whose limit the last of them may reach. -/
structure Kept (u : Usage) (place : Nat) (h : Handle) : Prop where
  objects : h.objects + u.times (.dropHandle place) = 1 + u.times (.cloneHandle place)
  balanced : u.references place + u.times (.release place) = 1 + u.times (.retain place)
  bounded : u.references place ≤ UInt64.size
  counted : h.count = u.references place % UInt64.size
  target : h.target.isSome = decide (0 < u.references place)

/-- The references are told by what was taken and what was given back. -/
theorem Kept.of_references (n : Nat)
    (objects : h.objects + u.times (.dropHandle place) = 1 + u.times (.cloneHandle place))
    (balanced : n + u.times (.release place) = 1 + u.times (.retain place))
    (bounded : n ≤ UInt64.size) (counted : h.count = n % UInt64.size)
    (target : h.target.isSome = decide (0 < n)) : u.Kept place h := by
  have hn : u.references place = n := by rw [references]; omega
  refine ⟨objects, ?_, ?_, ?_, ?_⟩ <;> rw [hn]
  · exact balanced
  · exact bounded
  · exact counted
  · exact target

/-- A count that is not at zero has not gone over the limit. -/
theorem Kept.count_eq (hk : u.Kept place h) (alive : h.refcount ≠ 0) :
    h.count = u.references place ∧ 0 < u.references place ∧ u.references place < UInt64.size := by
  have hcount : h.count ≠ 0 := fun hzero => alive (Sharing.count_eq_zero_iff.1 hzero)
  have hcounted := hk.counted
  rcases Nat.lt_or_eq_of_le hk.bounded with hlt | heq
  · rw [Nat.mod_eq_of_lt hlt] at hcounted
    exact ⟨hcounted, by omega, hlt⟩
  · rw [heq, Nat.mod_self] at hcounted
    exact absurd hcounted hcount

/-- What is done elsewhere makes no difference. -/
theorem Kept.elsewhere (hk : u.Kept place h) (hne : d.act.place? ≠ some place) :
    (u.after c d).Kept place h := by
  have htimes (b : Act) (hb : b.place? = some place) : (u.after c d).times b = u.times b :=
    times_after_of_ne fun h => hne (h ▸ hb)
  refine .of_references (u.references place) ?_ ?_ hk.bounded hk.counted hk.target
  · rw [htimes _ rfl, htimes _ rfl]
    exact hk.objects
  · rw [htimes _ rfl, htimes _ rfl]
    exact hk.balanced

/-- A move of the handle keeps it in agreement with the record. -/
theorem Kept.move {r : Except Error (Option Nat)} {ws : List Warning} (hk : u.Kept place h)
    (hpos : 0 < h.objects) (hmove : a.Move place h h' r) :
    (u.after c { act := a, result := r, warnings := ws }).Kept place h' := by
  have ⟨hobjects, hbalanced, hbounded, hcounted, htarget⟩ := hk
  have hself (hok : r.isOk = true) : (u.after c ⟨a, r, ws⟩).times a = u.times a + 1 :=
    times_after_self rfl hok
  have hother (b : Act) (hne : a ≠ b) : (u.after c ⟨a, r, ws⟩).times b = u.times b :=
    times_after_of_ne hne
  cases hmove with
  | cloned =>
    refine .of_references (u.references place) ?_ ?_ hbounded hcounted htarget
    · rw [hother (.dropHandle place) (by simp), hself rfl]
      dsimp only
      omega
    · rw [hother (.release place) (by simp), hother (.retain place) (by simp)]
      exact hbalanced
  | dropped =>
    refine .of_references (u.references place) ?_ ?_ hbounded hcounted htarget
    · rw [hother (.cloneHandle place) (by simp), hself rfl]
      dsimp only
      omega
    · rw [hother (.release place) (by simp), hother (.retain place) (by simp)]
      exact hbalanced
  | retained alive =>
    obtain ⟨hcount, hsome, hlt⟩ := hk.count_eq alive
    refine .of_references (u.references place + 1) ?_ ?_ hlt ?_ ?_
    · rw [hother (.dropHandle place) (by simp), hother (.cloneHandle place) (by simp)]
      exact hobjects
    · rw [hother (.release place) (by simp), hself rfl]
      omega
    · rw [← hcount]
      exact UInt64.toNat_add _ _
    · rw [htarget, decide_eq_true hsome, decide_eq_true (Nat.succ_pos _)]
  | released alive more =>
    obtain ⟨hcount, hsome, hlt⟩ := hk.count_eq alive
    have hnext : (h.refcount - 1).toNat + 1 = u.references place :=
      (toNat_sub_one alive).trans hcount
    have hmore : u.references place ≠ 1 := fun hone =>
      more (UInt64.toNat_inj.1 (hcount.trans hone))
    refine .of_references (u.references place - 1) ?_ ?_ (by omega) ?_ ?_
    · rw [hother (.dropHandle place) (by simp), hother (.cloneHandle place) (by simp)]
      exact hobjects
    · rw [hother (.retain place) (by simp), hself rfl]
      omega
    · rw [Nat.mod_eq_of_lt (by omega), ← hnext]
      rfl
    · rw [htarget, decide_eq_true hsome, decide_eq_true (by omega)]
  | emptied last =>
    obtain ⟨hcount, -, -⟩ := hk.count_eq (by rw [last]; decide)
    have hone : u.references place = 1 := hcount.symm.trans (congrArg UInt64.toNat last)
    refine .of_references 0 ?_ ?_ (Nat.zero_le _) rfl rfl
    · rw [hother (.dropHandle place) (by simp), hother (.cloneHandle place) (by simp)]
      exact hobjects
    · rw [hother (.retain place) (by simp), hself rfl]
      omega
  | refused =>
    refine .of_references (u.references place) ?_ ?_ hbounded hcounted htarget
    · rw [times_after_of_error rfl, times_after_of_error rfl]
      exact hobjects
    · rw [times_after_of_error rfl, times_after_of_error rfl]
      exact hbalanced

/-! ### The client and its record -/

/-- Whether a client in use agrees with its record. -/
structure Sound (u : Usage) : Prop where
  opened : u.client.handles.length = u.opened
  objects : u.client.objects + (u.times .drop + u.times .finalize) = 1 + u.times .clone
  finalized : u.client.finalized = decide (0 < u.times .finalize)
  placed : ∀ d ∈ u.past, ∀ place, d.act.place? = some place → place < u.client.handles.length
  kept : ∀ place h, u.client.handles[place]? = some h → u.Kept place h
  openHandles : u.client.openHandles = u.client.handles.countP fun h => h.target.isSome

theorem sound_start : Sound {} := by
  refine ⟨rfl, rfl, rfl, fun d hd => ?_, fun place h found => ?_, rfl⟩
  · cases hd
  · cases found

/-- What is done to a client object, other than opening a handle, leaves all handles alone. -/
theorem Sound.after_client (hs : u.Sound) (hplace : d.act.place? = none)
    (hopens : d.act.opens = false) (hhandles : c.handles = u.client.handles)
    (hopen : c.openHandles = u.client.openHandles)
    (hobjects : c.objects + ((u.after c d).times .drop + (u.after c d).times .finalize) =
      1 + (u.after c d).times .clone)
    (hfinalized : c.finalized = decide (0 < (u.after c d).times .finalize)) :
    (u.after c d).Sound where
  opened := by
    rw [opened_after, hopens, after, hhandles]
    exact hs.opened
  objects := hobjects
  finalized := hfinalized
  placed e he place hplace' := by
    rw [after, hhandles]
    rcases List.mem_append.1 he with he | he
    · exact hs.placed e he place hplace'
    · rw [List.mem_singleton.1 he, hplace] at hplace'
      cases hplace'
  kept place h found := by
    rw [after, hhandles] at found
    exact (hs.kept place h found).elsewhere (by simp [hplace])
  openHandles := by
    rw [after, hopen, hhandles]
    exact hs.openHandles

/-- A new handle was never acted on. -/
theorem Sound.after_openHandle (hs : u.Sound) (target : Address) (collector : CollectorId)
    (ws : List Warning) :
    (u.after (u.client.openHandle target collector).2
      ⟨.openHandle target collector, .ok none, ws⟩).Sound := by
  have hother (b : Act) (hne : Act.openHandle target collector ≠ b) :
      (u.after (u.client.openHandle target collector).2
        ⟨.openHandle target collector, .ok none, ws⟩).times b = u.times b := times_after_of_ne hne
  refine ⟨?_, ?_, ?_, fun d hd place hplace => ?_, fun place h found => ?_, ?_⟩
  · rw [opened_after, ← hs.opened]
    exact List.length_append
  · rw [hother _ (by simp), hother _ (by simp), hother _ (by simp)]
    exact hs.objects
  · rw [hother _ (by simp)]
    exact hs.finalized
  · have hlength : (u.client.openHandle target collector).2.handles.length =
        u.client.handles.length + 1 := List.length_append
    rw [after, hlength]
    rcases List.mem_append.1 hd with hd | hd
    · exact Nat.lt_succ_of_lt (hs.placed d hd place hplace)
    · rw [List.mem_singleton.1 hd] at hplace
      cases hplace
  · have hplace : Act.place? (.openHandle target collector) ≠ some place := by simp [Act.place?]
    by_cases hlt : place < u.client.handles.length
    · exact (hs.kept place h ((List.getElem?_append_left hlt).symm.trans found)).elsewhere hplace
    · have hnew := (List.getElem?_append_right (Nat.not_lt.1 hlt)).symm.trans found
      obtain rfl := List.mem_singleton.1 (List.mem_of_getElem? hnew)
      have hnone (b : Act) (hb : b.place? = some place) : u.times b = 0 := by
        refine List.countP_eq_zero.2 fun d hd hsame => hlt (hs.placed d hd place ?_)
        rw [Bool.and_eq_true, decide_eq_true_eq] at hsame
        rw [hsame.1, hb]
      -- It starts with one object and one reference.
      refine .of_references 1 ?_ ?_ (by decide) rfl rfl
      · rw [hother _ (by simp), hother _ (by simp), hnone _ rfl, hnone _ rfl]
      · rw [hother _ (by simp), hother _ (by simp), hnone _ rfl, hnone _ rfl]
  · have hopen := hs.openHandles
    simp only [after, Client.openHandle, List.countP_append, List.countP_singleton,
      Option.isSome_some, if_true]
    rw [hopen]

/-- The open handles are still those with an address: no act gives an address to a handle. -/
theorem openHandles_put (hs : u.Sound) (found : u.client.handles[place]? = some h)
    {r : Except Error (Option Nat)} (hmove : a.Move place h h' r) :
    (u.client.put place h h').openHandles =
      (u.client.put place h h').handles.countP fun h => h.target.isSome := by
  have hopen := hs.openHandles
  have hset := countP_set (fun h : Handle => h.target.isSome) found h'
  have hcases : h'.target = h.target ∨ h'.target = none := by
    cases hmove with
    | emptied => exact .inr rfl
    | _ => exact .inl rfl
  -- If it loses one, `openBehind` and the count over the handles go down together.
  rcases hcases with hsame | hnone
  · rw [hsame] at hset
    rw [Client.put, Client.openBehind_self _ hsame, hopen]
    exact (Nat.add_right_cancel hset).symm
  · rw [hnone, Option.isSome_none] at hset
    simp only [Client.put, Client.openBehind, hnone, Option.isNone_none, Bool.and_true, hopen]
    cases htarget : h.target.isSome with
    | true =>
      rw [htarget, if_pos rfl, if_neg Bool.false_ne_true] at hset
      rw [if_pos rfl]
      omega
    | false =>
      rw [htarget] at hset
      exact (Nat.add_right_cancel hset).symm

theorem Sound.after_handle (hs : u.Sound) (hplace : a.place? = some place)
    (found : u.client.handles[place]? = some h) (hpos : 0 < h.objects)
    {r : Except Error (Option Nat)} (hmove : a.Move place h h' r) (ws : List Warning) :
    (u.after (u.client.put place h h') ⟨a, r, ws⟩).Sound := by
  have hother (b : Act) (hb : b.place? = none) :
      (u.after (u.client.put place h h') ⟨a, r, ws⟩).times b = u.times b :=
    times_after_of_ne fun hab => by
      rw [← hab] at hb
      cases hplace.symm.trans hb
  have hlength : (u.client.put place h h').handles.length = u.client.handles.length :=
    List.length_set
  have hlt := (List.getElem?_eq_some_iff.1 found).1
  refine ⟨?_, ?_, ?_, fun d hd q hq => ?_, fun q g found' => ?_, openHandles_put hs found hmove⟩
  · have hopens : a.opens = false := by
      cases a with
      | openHandle => cases hplace
      | _ => rfl
    rw [opened_after, hopens, after, hlength]
    exact hs.opened
  · rw [hother _ rfl, hother _ rfl, hother _ rfl]
    exact hs.objects
  · rw [hother _ rfl]
    exact hs.finalized
  · rw [after, hlength]
    rcases List.mem_append.1 hd with hd | hd
    · exact hs.placed d hd q hq
    · rw [List.mem_singleton.1 hd] at hq
      cases hplace.symm.trans hq
      exact hlt
  · -- The handle at the place has moved; all others are as they were.
    by_cases hqp : q = place
    · rw [hqp] at found' ⊢
      obtain rfl : h' = g := Option.some.inj ((List.getElem?_set_self hlt).symm.trans found')
      exact (hs.kept place h found).move hpos hmove
    · have hold := (List.getElem?_set_ne (Ne.symm hqp)).symm.trans found'
      refine (hs.kept q g hold).elsewhere fun heq => hqp ?_
      exact Option.some.inj (heq.symm.trans hplace)

/-- What an act needs an object for. -/
theorem isPossible_cases (hp : a.isPossible u.client = true) :
    (a.place? = none ∧ 0 < u.client.objects) ∨
      ∃ place h, a.place? = some place ∧ u.client.handles[place]? = some h ∧ 0 < h.objects := by
  rw [Act.isPossible] at hp
  cases hplace : a.place? with
  | none =>
    rw [hplace] at hp
    exact .inl ⟨rfl, of_decide_eq_true hp⟩
  | some place =>
    rw [hplace] at hp
    obtain ⟨h, found, hpos⟩ := (Option.any_eq_true _ _).1 hp
    exact .inr ⟨place, h, rfl, found, of_decide_eq_true hpos⟩

theorem Sound.step (hs : u.Sound) (a : Act) : (u.step a).Sound := by
  by_cases hp : a.isPossible u.client = true
  case neg =>
    rw [Usage.step, if_neg hp]
    exact hs
  rw [step_of_isPossible hp]
  obtain ⟨hplace, hpos⟩ | ⟨place, h, hplace, found, hpos⟩ := isPossible_cases hp
  · have hobjects := hs.objects
    have hfinalized := hs.finalized
    cases a with
    | clone =>
      refine hs.after_client rfl rfl rfl rfl ?_ ?_
      · rw [times_after_of_ne (by simp), times_after_of_ne (by simp), times_after_self rfl rfl]
        simp only [Client.act, Client.clone]
        omega
      · rw [times_after_of_ne (by simp)]
        exact hfinalized
    | drop =>
      refine hs.after_client rfl rfl rfl rfl ?_ ?_
      · rw [times_after_self rfl rfl, times_after_of_ne (by simp), times_after_of_ne (by simp)]
        simp only [Client.act, Client.drop, Client.settle]
        omega
      · rw [times_after_of_ne (by simp)]
        exact hfinalized
    | finalize =>
      refine hs.after_client rfl rfl rfl rfl ?_ ?_
      · rw [times_after_of_ne (by simp), times_after_self rfl rfl, times_after_of_ne (by simp)]
        simp only [Client.act, Client.finalize, Client.settle]
        omega
      · rw [times_after_self rfl rfl, decide_eq_true (Nat.succ_pos _)]
        rfl
    | openHandle target collector => exact hs.after_openHandle target collector _
    | _ => cases hplace
  · obtain ⟨h', hmove, hclient, -⟩ := Client.act_handle hplace found
    rw [hclient]
    exact hs.after_handle hplace found hpos hmove _

theorem Sound.run (hs : u.Sound) (acts : List Act) : (u.run acts).Sound := by
  induction acts generalizing u with
  | nil => exact hs
  | cons a acts ih => exact ih (hs.step a)

/-! ### What can be read off the record -/

theorem Sound.objects_eq (hs : u.Sound) : u.client.objects = u.objects := by
  have hobjects := hs.objects
  rw [Usage.objects]
  omega

theorem Kept.objects_eq (hk : u.Kept place h) : h.objects = u.handleObjects place := by
  have hobjects := hk.objects
  rw [handleObjects]
  omega

theorem Kept.isHeld (hk : u.Kept place h) : u.isHeld place = h.holds := by
  rw [Usage.isHeld, Handle.holds, hk.objects_eq, hk.target, Bool.and_comm]

theorem Kept.isLost (hk : u.Kept place h) :
    u.isLost place = (h.objects = 0 && h.target.isSome : Bool) := by
  rw [Usage.isLost, hk.objects_eq, hk.target]

/-- A property of handles that the record tells is counted alike in both. -/
theorem Sound.countP_range (hs : u.Sound) {p : Nat → Bool} {q : Handle → Bool}
    (hpq : ∀ place h, u.Kept place h → p place = q h) :
    (List.range u.opened).countP p = u.client.handles.countP q := by
  rw [← hs.opened]
  exact countP_range_length fun place h found => hpq place h (hs.kept place h found)

/-- Every handle is open or released. -/
theorem Sound.openHandles_add (hs : u.Sound) : u.client.openHandles + u.released = u.opened := by
  have hreleased : u.released = u.client.handles.countP fun h => !h.target.isSome :=
    hs.countP_range fun place h hk => by
      rw [hk.target]
      cases u.references place <;> rfl
  have hsplit := List.length_eq_countP_add_countP (fun h : Handle => h.target.isSome)
    (l := u.client.handles)
  rw [hreleased, hs.openHandles, ← hs.opened, hsplit]
  simp only [Bool.not_eq_true, Bool.decide_eq_false]

theorem Sound.isAlive_iff (hs : u.Sound) : u.isAlive = true ↔ 0 < u.client.references := by
  have hheld : (List.range u.opened).countP u.isHeld = u.client.handles.countP Handle.holds :=
    hs.countP_range fun place h hk => hk.isHeld
  rw [isAlive, Bool.or_eq_true, decide_eq_true_eq, List.any_eq_true, ← List.countP_pos_iff, hheld,
    ← hs.objects_eq, Client.references]
  omega

/-- The handles that are open once the client is gone are those that were dropped for good. -/
theorem Sound.openHandles_eq_lost (hs : u.Sound) (hdead : u.client.references = 0) :
    u.client.openHandles = u.lost := by
  rw [lost, hs.countP_range fun place h hk => hk.isLost, hs.openHandles]
  refine List.countP_congr fun h hmem => ?_
  have hnone : u.client.handles.countP Handle.holds = 0 := (Nat.add_eq_zero_iff.1 hdead).2
  have hholds : ¬ h.holds = true := List.countP_eq_zero.1 hnone h hmem
  rw [Handle.holds, Bool.and_eq_true, decide_eq_true_eq, not_and, Nat.not_lt,
    Nat.le_zero] at hholds
  rw [Bool.and_eq_true, decide_eq_true_eq]
  exact ⟨fun hsome => ⟨hholds hsome, hsome⟩, fun h => h.2⟩

theorem Sound.isAlive_eq_false_iff (hs : u.Sound) :
    u.isAlive = false ↔ u.client.references = 0 := by
  rw [← Bool.not_eq_true, hs.isAlive_iff, Nat.pos_iff_ne_zero, not_not]

end Usage
end Collectors
