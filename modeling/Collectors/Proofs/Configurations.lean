import Collectors.Backend.Dummy
import Collectors.Proofs.Effects

/-!
# The configurations of dummy instances

The dummy backend keeps the configurations of its instances in a store, and loses one when the
instance is closed or destroyed. `Dummy.Houses` says that a behaviour has the dummy backend among
its backends; nothing is said of the others.

`Dummy.Intact` is what holds of such a behaviour all the time (`Traffic.Reachable.intact`): no dummy
instance stands twice among the collectors around, and the store still has the configuration of
every one of them. A configuration that is lost is never seen again (`Dummy.Store.Becomes`).
-/

namespace Collectors

variable {β ι ω β' ι' ω' : Type}

namespace Dummy
namespace Store

/-! ### The store -/

theorem lt_of_config? {s : Store} {k : Nat} {v : Json} (h : s.config? k = some v) :
    k < s.configs.size := by
  by_contra hle
  rw [config?, Array.getElem?_eq_none (Nat.not_lt.1 hle)] at h
  cases h

theorem config?_add_self (s : Store) (v : Json) : (s.add v).2.config? s.configs.size = some v := by
  simp [add, config?]

theorem config?_add_of_lt {s : Store} {k : Nat} (hk : k < s.configs.size) (v : Json) :
    (s.add v).2.config? k = s.config? k := by
  simp only [add, config?]
  rw [Array.getElem?_push_lt hk, Array.getElem?_eq_getElem hk]

theorem config?_release_of_ne (s : Store) {k n : Nat} (h : n ≠ k) :
    (s.release n).config? k = s.config? k := by
  simp only [release, config?]
  rw [Array.getElem?_setIfInBounds_ne h]

theorem config?_release_self (s : Store) (k : Nat) : (s.release k).config? k = none := by
  simp only [release, config?]
  rw [Array.getElem?_setIfInBounds_self]
  split <;> rfl

/-- Releases the configuration of a dummy instance, if it is one. -/
def releaseAt (s : Store) : Option Nat → Store
  | none => s
  | some k => s.release k

theorem size_releaseAt (s : Store) (k : Option Nat) :
    (s.releaseAt k).configs.size = s.configs.size := by
  cases k <;> simp [releaseAt, release]

/-- Whether a store comes to be `s'` later: there are more instances, and some may have ended. -/
structure Becomes (s s' : Store) : Prop where
  size : s.configs.size ≤ s'.configs.size
  config : ∀ k < s.configs.size, s'.config? k = s.config? k ∨ s'.config? k = none

theorem Becomes.refl (s : Store) : s.Becomes s := ⟨Nat.le_refl _, fun _ _ => .inl rfl⟩

theorem Becomes.trans {s s' s'' : Store} (h : s.Becomes s') (h' : s'.Becomes s'') :
    s.Becomes s'' := by
  refine ⟨Nat.le_trans h.size h'.size, fun k hk => ?_⟩
  rcases h'.config k (Nat.lt_of_lt_of_le hk h.size) with heq | hnone
  · rw [heq]
    exact h.config k hk
  · exact .inr hnone

theorem becomes_add (s : Store) (v : Json) : s.Becomes (s.add v).2 := by
  refine ⟨?_, fun k hk => .inl (config?_add_of_lt hk v)⟩
  simp [add]

theorem becomes_releaseAt (s : Store) (n : Option Nat) : s.Becomes (s.releaseAt n) := by
  refine ⟨Nat.le_of_eq (s.size_releaseAt n).symm, fun k _ => ?_⟩
  cases n with
  | none => exact .inl rfl
  | some n =>
    by_cases h : n = k
    · subst h
      exact .inr (s.config?_release_self n)
    · exact .inl (s.config?_release_of_ne h)

/-- What is seen of a configuration later is the configuration. -/
theorem Becomes.eq_or_none {s s' : Store} (h : s.Becomes s') {k : Nat} {v : Json}
    (hk : s.config? k = some v) : s'.config? k = some v ∨ s'.config? k = none := by
  rw [← hk]
  exact h.config k (lt_of_config? hk)

end Store

/-! ### Behaviours with the dummy backend -/

/-- Whether a behaviour has the dummy backend among its backends: `index` tells which dummy
instance an instance is, `store` where the configurations are, and `made` what can be told of an
instance and the configuration that it was made with. -/
structure Houses (b : Behaviour β ι ω) (index : ι → Option Nat) (store : ω → Store)
    (made : ι → Option String → Prop) : Prop where
  instantiate : ∀ {k mode config w i w'}, b.instantiate k mode config w = (some (.ok i), w') →
    (index i = none ∧ store w' = store w) ∨
      ∃ v, parseConfig config = .ok v ∧ index i = some (store w).configs.size ∧
        store w' = ((store w).add v).2 ∧ made i config
  refuse : ∀ {k mode config w}, (∀ i, (b.instantiate k mode config w).1 ≠ some (.ok i)) →
    store (b.instantiate k mode config w).2 = store w
  close : ∀ i w, store (b.close i w).2 = (store w).releaseAt (index i)
  destroy : ∀ i w, store (b.destroy i w).2 = (store w).releaseAt (index i)
  hello : ∀ i w, store (b.hello i w).2 = store w
  sum : ∀ i x y w, store (b.sum i x y w).2 = store w
  invoke : ∀ i operation args w, store (b.invoke i operation args w).2 = store w
  answer : ∀ {i k}, index i = some k → ∀ operation args w,
    (b.invoke i operation args w).1 =
      some (Dummy.answer ((store w).config? k) operation args)

/-- Whether the store has the configurations of all dummy instances among some collectors, and
none of them stands there twice. -/
structure Intact (index : ι → Option Nat) (store : ω → Store) (made : ι → Option String → Prop)
    (l : List (Collector ι)) (w : ω) : Prop where
  nodup : (l.filterMap fun c => index c.resource).Nodup
  config : ∀ c ∈ l, ∀ k, index c.resource = some k →
    ∃ v config, (store w).config? k = some v ∧ parseConfig config = .ok v ∧ made c.resource config

variable {b : Behaviour β ι ω} {index : ι → Option Nat} {store : ω → Store}
  {made : ι → Option String → Prop} {l l' : List (Collector ι)} {w w' : ω}

theorem Intact.mono (hl : Intact index store made l w) (hsub : l'.Subperm l)
    (hstore : store w' = store w) : Intact index store made l' w' := by
  obtain ⟨k, hperm, hsublist⟩ := hsub
  refine ⟨?_, fun c hc => ?_⟩
  · exact ((hperm.filterMap _).nodup_iff).1 (hl.nodup.sublist (hsublist.filterMap _))
  · rw [hstore]
    exact hl.config c (hsublist.subset (hperm.mem_iff.2 hc))

/-- What is released with one collector is not the configuration of another. -/
theorem Intact.release {c : Collector ι} (hl : Intact index store made (c :: l) w)
    (hstore : store w' = (store w).releaseAt (index c.resource)) :
    Intact index store made l w' := by
  refine ⟨hl.nodup.sublist ((List.sublist_cons_self c l).filterMap _), fun d hd k hk => ?_⟩
  obtain ⟨v, config, hv, hmade⟩ := hl.config d (List.mem_cons_of_mem c hd) k hk
  refine ⟨v, config, ?_, hmade⟩
  rw [hstore]
  cases hindex : index c.resource with
  | none => exact hv
  | some n =>
    have hnodup := hl.nodup
    simp only [List.filterMap_cons, hindex, List.nodup_cons] at hnodup
    have hne : n ≠ k := by
      rintro rfl
      exact hnodup.1 (List.mem_filterMap.2 ⟨d, hd, hk⟩)
    rw [Store.releaseAt, Store.config?_release_of_ne _ hne, hv]

/-- A new instance has a place of its own in the store. -/
theorem Intact.make (hb : Houses b index store made) (hl : Intact index store made l w)
    {k : β} {mode : Mode} {config : Option String} {c : Collector ι}
    (hnew : b.instantiate k mode config w = (some (.ok c.resource), w')) :
    Intact index store made (c :: l) w' := by
  rcases hb.instantiate hnew with ⟨hindex, hstore⟩ | ⟨v, hconfig, hindex, hstore, hmade⟩
  · have hold := hl.mono (.refl l) hstore
    refine ⟨by simpa only [List.filterMap_cons, hindex] using hold.nodup, fun d hd n hn => ?_⟩
    rcases List.mem_cons.1 hd with rfl | hd
    · cases hindex.symm.trans hn
    · exact hold.config d hd n hn
  · -- The others are in the store already, in front of the new one.
    have hlt : ∀ d ∈ l, ∀ n, index d.resource = some n → n < (store w).configs.size := by
      intro d hd n hn
      obtain ⟨v, config, hv, -⟩ := hl.config d hd n hn
      exact Store.lt_of_config? hv
    constructor
    · simp only [List.filterMap_cons, hindex, List.nodup_cons]
      refine ⟨fun hmem => ?_, hl.nodup⟩
      obtain ⟨d, hd, hn⟩ := List.mem_filterMap.1 hmem
      exact Nat.lt_irrefl _ (hlt d hd _ hn)
    · intro d hd n hn
      rw [hstore]
      rcases List.mem_cons.1 hd with rfl | hd
      · obtain rfl : (store w).configs.size = n := Option.some.inj (hindex.symm.trans hn)
        exact ⟨v, config, Store.config?_add_self _ v, hconfig, hmade⟩
      · rw [Store.config?_add_of_lt (hlt d hd n hn)]
        exact hl.config d hd n hn

/-- **Every step keeps the configurations of the collectors that are left.** -/
theorem Intact.effect (hb : Houses b index store made) (hl : Intact index store made l w)
    (h : Effect b l w l' w') : Intact index store made l' w' := by
  cases h with
  | keep left => exact hl.mono left rfl
  | refuse k mode config left failed => exact hl.mono left (hb.refuse failed)
  | make new left => exact (hl.make hb new).mono left rfl
  | close left => exact (hl.mono left rfl).release (hb.close _ _)
  | destroy left => exact (hl.mono left rfl).release (hb.destroy _ _)
  | hello i left => exact hl.mono left (hb.hello i w)
  | sum i x y left => exact hl.mono left (hb.sum i x y w)
  | invoke i operation args left => exact hl.mono left (hb.invoke i operation args w)

/-- Every step leads the store on. -/
theorem Houses.becomes (hb : Houses b index store made) (h : Effect b l w l' w') :
    (store w).Becomes (store w') := by
  cases h with
  | keep left => exact .refl _
  | refuse k mode config left failed => rw [hb.refuse failed]; exact .refl _
  | make new left =>
    rcases hb.instantiate new with ⟨-, hstore⟩ | ⟨v, -, -, hstore, -⟩ <;> rw [hstore]
    · exact .refl _
    · exact Store.becomes_add _ v
  | close left => rw [hb.close]; exact Store.becomes_releaseAt _ _
  | destroy left => rw [hb.destroy]; exact Store.becomes_releaseAt _ _
  | hello i left => rw [hb.hello]; exact .refl _
  | sum i x y left => rw [hb.sum]; exact .refl _
  | invoke i operation args left => rw [hb.invoke]; exact .refl _

end Dummy

/-! ### Whole schedules -/

namespace Traffic

open Dummy

variable {b : Behaviour β ι ω} {index : ι → Option Nat} {store : ω → Store}
  {made : ι → Option String → Prop}

/-- The store has the configurations of all dummy instances around, at every time. -/
theorem Reachable.intact (hb : Houses b index store made) {w : ω} {s : Traffic β ι ω}
    (hs : Reachable b w s) : Intact index store made s.around s.world :=
  hs.induct (fun s => Intact index store made s.around s.world) ⟨List.nodup_nil, nofun⟩
    fun s e h => h.effect hb (s.effect_step b e)

theorem becomes_run (hb : Houses b index store made) (s : Traffic β ι ω) (es : List (Event β)) :
    (store s.world).Becomes (store (run b s es).world) := by
  induction es generalizing s with
  | nil => exact .refl _
  | cons e es ih => exact (hb.becomes (s.effect_step b e)).trans (ih _)

/-- A configuration is there as long as its collector is in a table. -/
theorem Reachable.config?_of_contents (hb : Houses b index store made) {w : ω}
    {s : Traffic β ι ω} (hs : Reachable b w s) {place : Nat} {t : List (Collector ι) × Bool}
    (ht : s.host.contents[place]? = some t) {c : Collector ι} (hc : c ∈ t.1) {k : Nat}
    (hk : index c.resource = some k) :
    ∃ v config, (store s.world).config? k = some v ∧ parseConfig config = .ok v ∧
      made c.resource config :=
  (hs.intact hb).config c (mem_around_of_contents ht hc) k hk

end Traffic

/-! ### The dummy backend among others -/

namespace Dummy

/-- Labels tell which configuration an instance was made with. -/
theorem Houses.labelled (hb : Houses b index store made) :
    Houses b.labelled (fun i => index i.2) store fun i config => i.1 = config where
  instantiate := by
    intro k mode config w i w' h
    rcases hnew : b.instantiate k mode config w with ⟨_ | (e | i'), w''⟩ <;>
      simp only [Behaviour.labelled, hnew] at h <;> cases h
    rcases hb.instantiate hnew with hother | ⟨v, hconfig, hindex, hstore, -⟩
    · exact .inl hother
    · exact .inr ⟨v, hconfig, hindex, hstore, rfl⟩
  refuse := by
    intro k mode config w h
    refine hb.refuse fun i hi => h (config, i) ?_
    simp only [Behaviour.labelled, hi]
    rfl
  close i w := hb.close i.2 w
  destroy i w := hb.destroy i.2 w
  hello i w := hb.hello i.2 w
  sum i x y w := hb.sum i.2 x y w
  invoke i operation args w := hb.invoke i.2 operation args w
  answer hindex operation args w := hb.answer hindex operation args w

theorem houses_beside (b' : Behaviour β' ι' ω') :
    Houses (behaviour.beside b') Sum.getLeft? Prod.fst fun _ _ => True where
  instantiate := by
    rintro (_ | k) mode config ⟨w, w'⟩ i _ h
    · simp only [Behaviour.beside, behaviour] at h
      cases hconfig : parseConfig config with
      | error e => rw [hconfig] at h; cases h
      | ok v => rw [hconfig] at h; cases h; exact .inr ⟨v, rfl, rfl, rfl, trivial⟩
    · rcases hnew : (b'.instantiate k mode config w').1 with _ | (e | i) <;>
        simp only [Behaviour.beside, hnew] at h <;> cases h
      exact .inl ⟨rfl, rfl⟩
  refuse := by
    rintro (_ | k) mode config ⟨w, w'⟩ h
    · simp only [Behaviour.beside, behaviour] at h ⊢
      cases hconfig : parseConfig config with
      | error e => rfl
      | ok v => rw [hconfig] at h; exact absurd rfl (h _)
    · rfl
  close := by rintro (i | i) ⟨w, w'⟩ <;> rfl
  destroy := by rintro (i | i) ⟨w, w'⟩ <;> rfl
  hello := by rintro (i | i) ⟨w, w'⟩ <;> rfl
  sum := by rintro (i | i) x y ⟨w, w'⟩ <;> rfl
  invoke := by rintro (i | i) operation args ⟨w, w'⟩ <;> rfl
  answer := by
    rintro (i | i) k hindex operation args ⟨w, w'⟩ <;> cases hindex
    rfl

end Dummy
end Collectors
