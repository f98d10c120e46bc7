import Collectors.CommandLine.Run
import Collectors.Proofs.Hosting

/-!
# What `serve` hosts

The providers of a configuration file and those of the command line make one configuration, which
is validated once more: a repeat may be in front of the seam, behind it, or across it
(`ServeArgs.firstRepeat_merge`). `ServeArgs.plan_cases` goes through the four ways in which planning
may end, in the order in which they are tested. What is left is hosted (`ServeArgs.hosts_merge`),
and `Command.run_serves` says so of the whole command.
-/

namespace Collectors

/-- Whether a host answers for a provider that has an id, a token and a number of workers. -/
def Host.Answers {β ι : Type} (h : Host β ι) (id : ProviderId) (token : Option String)
    (poolSize : UInt64) : Prop :=
  ∃ place p, h.find id = .ok place ∧ h.provider? place = some p ∧ p.id = id ∧
    p.token = AdminToken.new token ∧ p.poolSize = if poolSize = 0 then 16 else poolSize.toNat

namespace CommandLine

namespace ServeArgs

/-! ### Two lists of providers -/

/-- The ids of a file, and behind them those of the command line. -/
def idsBehind (args : ServeArgs) (file : ServerConfig) : List ProviderId :=
  file.providers.map (·.providerId) ++ args.providerIds

variable {args : ServeArgs} {file : ServerConfig}

theorem map_provider (args : ServeArgs) (ids : List ProviderId) :
    (ids.map args.provider).map (·.providerId) = ids := by
  rw [List.map_map]
  exact List.map_id _

theorem merge_of_nil (h : args.idsBehind file = []) :
    (args.merge file).providers = [args.provider 0] := by
  obtain ⟨hfile, hargs⟩ := List.append_eq_nil_iff.1 h
  rw [merge, List.map_eq_nil_iff.1 hfile, hargs]
  rfl

theorem merge_of_ne_nil (h : args.idsBehind file ≠ []) :
    (args.merge file).providers = file.providers ++ args.providerIds.map args.provider := by
  refine if_neg fun hempty => h ?_
  obtain ⟨hfile, hargs⟩ := List.append_eq_nil_iff.1 (List.isEmpty_iff.1 hempty)
  rw [idsBehind, hfile, List.map_eq_nil_iff.1 hargs]
  rfl

/-- The ids to host are those that are given; zero, if none is. -/
theorem ids_merge (args : ServeArgs) (file : ServerConfig) :
    (args.merge file).providers.map (·.providerId) =
      if args.idsBehind file = [] then [0] else args.idsBehind file := by
  split
  · rename_i hnil
    rw [merge_of_nil hnil]
    rfl
  · rename_i hne
    rw [merge_of_ne_nil hne, List.map_append, map_provider, idsBehind]

/-- The provider that stands in for none is no repeat. -/
theorem firstRepeat_merge (args : ServeArgs) (file : ServerConfig) :
    ServerConfig.firstRepeat [] ((args.merge file).providers.map (·.providerId)) =
      ServerConfig.firstRepeat [] (args.idsBehind file) := by
  rw [ids_merge]
  split
  · rename_i hnil
    rw [hnil]
    rfl
  · rfl

theorem nodup_merge (h : (args.idsBehind file).Nodup) :
    ((args.merge file).providers.map (·.providerId)).Nodup := by
  rw [ids_merge]
  split
  · exact List.nodup_singleton 0
  · exact h

/-! ### The order of checks -/

/-- What is reported of a file that is rejected. -/
def rejection (args : ServeArgs) (e : Error) : Report :=
  .caused ("loading " ++ args.config.getD "") e

/-- What is reported of an id that is given twice. -/
def repetition (id : ProviderId) : Report :=
  .ofError (.configuration ("provider id " ++ toString id ++ " listed twice"))

/-- What is reported of an address that is none. -/
def misaddress (args : ServeArgs) : Report :=
  { message := "invalid bind address " ++ args.address
    causes := ["invalid socket address syntax"] }

/-- **The four ends of planning**: the file is rejected, or else an id is given twice, or else the
address is none, or else everything is hosted. -/
theorem plan_cases (args : ServeArgs) (file : Except Error ServerConfig) :
    (∃ e, file = .error e ∧ args.plan file = .error (args.rejection e)) ∨
    ∃ config, file = .ok config ∧
      ((∃ front id back, args.idsBehind config = front ++ id :: back ∧ front.Nodup ∧ id ∈ front ∧
          args.plan file = .error (repetition id)) ∨
        (args.idsBehind config).Nodup ∧
          ((Http.isSocketAddress args.address = false ∧ args.plan file = .error args.misaddress) ∨
            (Http.isSocketAddress args.address = true ∧
              args.plan file = .ok (args.merge config)))) := by
  cases file with
  | error e => exact .inl ⟨e, rfl, rfl⟩
  | ok config =>
    refine .inr ⟨config, rfl, ?_⟩
    cases hrepeat : ServerConfig.firstRepeat [] (args.idsBehind config) with
    | some id =>
      obtain ⟨front, back, hids, hfront, -, hid⟩ := ServerConfig.firstRepeat_eq_some hrepeat
      have hplan : args.plan (.ok config) = .error (repetition id) := by
        simp only [plan, Except.mapError, bind, Except.bind, ServerConfig.validate,
          firstRepeat_merge, hrepeat]
        rfl
      exact .inl ⟨front, id, back, hids, hfront, hid.resolve_left List.not_mem_nil, hplan⟩
    | none =>
      have hplan : args.plan (.ok config) =
          if Http.isSocketAddress args.address then .ok (args.merge config)
          else .error args.misaddress := by
        simp only [plan, Except.mapError, bind, Except.bind, ServerConfig.validate,
          firstRepeat_merge, hrepeat]
        rfl
      refine .inr ⟨(ServerConfig.firstRepeat_eq_none_iff.1 hrepeat).1, ?_⟩
      rw [hplan]
      cases haddress : Http.isSocketAddress args.address with
      | false => exact .inl ⟨rfl, rfl⟩
      | true => exact .inr ⟨rfl, rfl⟩

/-! ### What is left to host -/

/-- Whether a host has the providers of a file and those of the command line, and no others; or the
one that stands in for none. -/
structure Hosted {β ι : Type} (args : ServeArgs) (file : ServerConfig) (h : Host β ι) : Prop where
  nonempty : h.ids ≠ []
  /-- The ids are the given ones, in order. -/
  ids : h.ids = (if args.idsBehind file = [] then [0] else args.idsBehind file).mergeSort
  /-- An entry of the file has its own token and number of workers. -/
  ofFile : ∀ c ∈ file.providers, h.Answers c.providerId c.token c.poolSize
  /-- An id of the command line has those of the command line. -/
  ofArgs : ∀ id ∈ args.providerIds, h.Answers id args.token args.poolSize
  /-- So has the provider that stands in for none. -/
  default : args.idsBehind file = [] → h.Answers 0 args.token args.poolSize

theorem mem_merge (args : ServeArgs) (file : ServerConfig) :
    (∀ c ∈ file.providers, c ∈ (args.merge file).providers) ∧
      (∀ id ∈ args.providerIds, args.provider id ∈ (args.merge file).providers) ∧
      (args.idsBehind file = [] → args.provider 0 ∈ (args.merge file).providers) := by
  by_cases hnil : args.idsBehind file = []
  · obtain ⟨hfile, hargs⟩ := List.append_eq_nil_iff.1 hnil
    rw [merge_of_nil hnil, List.map_eq_nil_iff.1 hfile, hargs]
    exact ⟨by simp, by simp, fun _ => List.mem_singleton_self _⟩
  · rw [merge_of_ne_nil hnil]
    refine ⟨fun c hc => List.mem_append_left _ hc, fun id hid => ?_, fun h => absurd h hnil⟩
    exact List.mem_append_right _ (List.mem_map_of_mem hid)

/-- No provider has too many workers, if none of the file has and those of the command line have
not. -/
theorem poolSize_merge (hargs : args.poolSize.toNat ≤ maxWorkers)
    (hfile : ∀ c ∈ file.providers, c.poolSize.toNat ≤ maxWorkers) :
    ∀ c ∈ (args.merge file).providers, c.poolSize.toNat ≤ maxWorkers := by
  by_cases hnil : args.idsBehind file = []
  · rw [merge_of_nil hnil]
    intro c hc
    rw [List.mem_singleton.1 hc]
    exact hargs
  · rw [merge_of_ne_nil hnil]
    intro c hc
    rcases List.mem_append.1 hc with hc | hc
    · exact hfile c hc
    · obtain ⟨id, -, rfl⟩ := List.mem_map.1 hc
      exact hargs

/-- **Two lists without a repeat are hosted.** -/
theorem hosts_merge {β : Type} (ι : Type) (dummy : β) (hnodup : (args.idsBehind file).Nodup)
    (hargs : args.poolSize.toNat ≤ maxWorkers)
    (hfile : ∀ c ∈ file.providers, c.poolSize.toNat ≤ maxWorkers) :
    ∃ h : Host β ι, Host.ofConfigs (args.merge file).providers dummy = some (.ok h) ∧
      args.Hosted file h := by
  have hsize := poolSize_merge hargs hfile
  obtain ⟨⟨c, hc, hlarge⟩, -⟩ | ⟨-, h, hok, hserves⟩ :=
    Host.ofConfigs_of_nodup (ι := ι) dummy (nodup_merge hnodup)
  · exact absurd (hsize c hc) (Nat.not_le.2 hlarge)
  · obtain ⟨hofFile, hofArgs, hdefault⟩ := args.mem_merge file
    have hids : h.ids =
        (if args.idsBehind file = [] then [0] else args.idsBehind file).mergeSort := by
      rw [hserves.ids, ids_merge]
    refine ⟨h, hok, ?_, hids, fun c hc => hserves.found c (hofFile c hc),
      fun id hid => hserves.found _ (hofArgs id hid), fun hnil => hserves.found _ (hdefault hnil)⟩
    intro hnone
    have hlength := congrArg List.length (hids.symm.trans hnone)
    rw [List.length_mergeSort] at hlength
    split at hlength
    · cases hlength
    · rename_i hne
      exact hne (List.eq_nil_of_length_eq_zero hlength)

end ServeArgs

/-! ### The command -/

/-- What `serve` may lead to when its file was read with the result `file`. What is tested later is
looked at only if everything before it was passed. -/
inductive Serves {β σ : Type} (ι : Type) (dummy : β) (args : ServeArgs)
    (file : Except Error ServerConfig) (s : σ) : Start σ → Prop where
  /-- The file is rejected. -/
  | rejected {e} (error : file = .error e) :
    Serves ι dummy args file s (.ended (.ofLines (.error (args.rejection e))) s)
  /-- An id was given before; the first such one is reported. -/
  | repeated {config front id back} (ok : file = .ok config)
    (ids : args.idsBehind config = front ++ id :: back) (nodup : front.Nodup) (mem : id ∈ front) :
    Serves ι dummy args file s (.ended (.ofLines (.error (ServeArgs.repetition id))) s)
  /-- The address is none. -/
  | misaddressed {config} (ok : file = .ok config) (nodup : (args.idsBehind config).Nodup)
    (address : Http.isSocketAddress args.address = false) :
    Serves ι dummy args file s (.ended (.ofLines (.error args.misaddress)) s)
  /-- Everything is hosted. -/
  | hosting {config merged} {h : Host β ι} (ok : file = .ok config)
    (nodup : (args.idsBehind config).Nodup) (address : Http.isSocketAddress args.address = true)
    (made : Host.ofConfigs merged.providers dummy = some (.ok h)) (hosted : args.Hosted config h) :
    Serves ι dummy args file s (.hosting args.address merged)

theorem not_nodup_of_mem {α : Type} {front back : List α} {a : α} (h : a ∈ front) :
    ¬(front ++ a :: back).Nodup := fun hnodup =>
  (List.nodup_append.1 hnodup).2.2 a h a List.mem_cons_self rfl

/-- There are three reasons to host nothing. -/
theorem Serves.ended_iff {β σ ι : Type} {dummy : β} {args : ServeArgs}
    {file : Except Error ServerConfig} {s : σ} {start : Start σ}
    (h : Serves ι dummy args file s start) :
    (∃ outcome, start = .ended outcome s) ↔
      (∃ e, file = .error e) ∨ ∃ config, file = .ok config ∧
        (¬(args.idsBehind config).Nodup ∨ Http.isSocketAddress args.address = false) := by
  cases h with
  | rejected error => exact iff_of_true ⟨_, rfl⟩ (.inl ⟨_, error⟩)
  | repeated ok ids nodup mem =>
    exact iff_of_true ⟨_, rfl⟩ (.inr ⟨_, ok, .inl (ids ▸ not_nodup_of_mem mem)⟩)
  | misaddressed ok nodup address =>
    exact iff_of_true ⟨_, rfl⟩ (.inr ⟨_, ok, .inr address⟩)
  | hosting ok nodup address =>
    refine iff_of_false (by simp) ?_
    rintro (⟨e, herror⟩ | ⟨config, hok, hreason⟩)
    · cases ok.symm.trans herror
    · cases ok.symm.trans hok
      rcases hreason with hnot | haddress
      · exact hnot nodup
      · cases address.symm.trans haddress

section Run

variable {σ : Type} {args : ServeArgs} {content : String → Except FileFailure ByteArray}

theorem Command.run_serve_error {r : Report} (hplan : args.plan (args.file content) = .error r)
    (net : Network σ) (s : σ) :
    (Command.serve args).run net content s = .ended (.ofLines (.error r)) s := by
  rw [Command.run, hplan]

theorem Command.run_serve_ok {config : ServerConfig}
    (hplan : args.plan (args.file content) = .ok config) (net : Network σ) (s : σ) :
    (Command.serve args).run net content s = .hosting args.address config := by
  rw [Command.run, hplan]

end Run

/-- **What `serve` hosts**, and when it hosts nothing. -/
theorem Command.run_serves {β σ : Type} (ι : Type) (dummy : β) (args : ServeArgs) (net : Network σ)
    (content : String → Except FileFailure ByteArray) (s : σ)
    (hargs : args.poolSize.toNat ≤ maxWorkers)
    (hfile : ∀ config, args.file content = .ok config →
      ∀ c ∈ config.providers, c.poolSize.toNat ≤ maxWorkers) :
    let start := (Command.serve args).run net content s
    Serves ι dummy args (args.file content) s start ∧
      ((∃ outcome, start = .ended outcome s) ↔
        (∃ e, args.file content = .error e) ∨ ∃ config, args.file content = .ok config ∧
          (¬(args.idsBehind config).Nodup ∨ Http.isSocketAddress args.address = false)) := by
  intro start
  have hstart : start = (Command.serve args).run net content s := rfl
  have hserves : Serves ι dummy args (args.file content) s start := by
    obtain ⟨e, hcontent, hplan⟩ | ⟨config, hcontent, hends⟩ :=
      args.plan_cases (args.file content)
    · rw [hstart, Command.run_serve_error hplan]
      exact .rejected hcontent
    obtain ⟨front, id, back, hids, hfront, hid, hplan⟩ | ⟨hnodup, hends⟩ := hends
    · rw [hstart, Command.run_serve_error hplan]
      exact .repeated hcontent hids hfront hid
    obtain ⟨haddress, hplan⟩ | ⟨haddress, hplan⟩ := hends
    · rw [hstart, Command.run_serve_error hplan]
      exact .misaddressed hcontent hnodup haddress
    · obtain ⟨h, hmade, hhosted⟩ :=
        ServeArgs.hosts_merge ι dummy hnodup hargs (hfile config hcontent)
      rw [hstart, Command.run_serve_ok hplan]
      exact .hosting hcontent hnodup haddress hmade hhosted
  exact ⟨hserves, hserves.ended_iff⟩

/-- Two providers of a file and one of the command line are hosted, each with what it was given. -/
theorem Command.run_serves_three :
    let args : ServeArgs :=
      { address := "127.0.0.1:8090", token := some "t", poolSize := 4, providerIds := [9]
        config := some "two.json" }
    let two : ServerConfig :=
      { providers := [{ providerId := 7, poolSize := 0 }, { providerId := 3, token := some "u" }] }
    let content := fun _ => .ok (ServerConfig.codec.write two).toUTF8
    args.file content = .ok two ∧ (∀ c ∈ two.providers, c.poolSize.toNat ≤ maxWorkers) ∧
      ∃ (merged : ServerConfig) (h : Host Unit Unit),
        (Command.serve args).run .silent content () = .hosting args.address merged ∧
        Host.ofConfigs merged.providers () = some (.ok h) ∧ h.ids = [3, 7, 9] ∧
        h.Answers 3 (some "u") 16 ∧ h.Answers 7 none 0 ∧ h.Answers 9 (some "t") 4 := by
  intro args two content
  have hpath : ConfigFormat.ofPath? "two.json" = some .json := by decide +kernel
  have hfile : args.file content = .ok two := Host.ofFile_write hpath rfl
  have hsize : ∀ c ∈ two.providers, c.poolSize.toNat ≤ maxWorkers := by decide
  have hconfig : ∀ config, args.file content = .ok config →
      ∀ c ∈ config.providers, c.poolSize.toNat ≤ maxWorkers := fun config hconfig => by
    cases hfile.symm.trans hconfig
    exact hsize
  have hserves := (Command.run_serves Unit () args .silent content () (by decide) hconfig).1
  refine ⟨hfile, hsize, ?_⟩
  generalize (Command.serve args).run .silent content () = start at hserves
  have hnodup : (args.idsBehind two).Nodup := by decide
  cases hserves with
  | rejected error => cases hfile.symm.trans error
  | repeated ok ids nodup mem =>
    cases hfile.symm.trans ok
    exact absurd (ids ▸ hnodup) (not_nodup_of_mem mem)
  | misaddressed ok nodup address => exact absurd address (by decide +kernel)
  | @hosting config merged h ok nodup address made hosted =>
    cases hfile.symm.trans ok
    have hids : h.ids = [3, 7, 9] := hosted.ids.trans (by cbv)
    have hthree : { providerId := 3, token := some "u" } ∈ two.providers := by simp [two]
    have hseven : { providerId := 7, poolSize := 0 } ∈ two.providers := by simp [two]
    exact ⟨merged, h, rfl, made, hids, hosted.ofFile _ hthree, hosted.ofFile _ hseven,
      hosted.ofArgs 9 (List.mem_singleton_self 9)⟩

end CommandLine
end Collectors
