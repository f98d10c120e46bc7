import Collectors.Proofs.FlowNodes
import Collectors.Proofs.Hosting

/-!
# Stored configurations

The text that a configuration is written as is JSON, and it is YAML for the same configuration as
long as its tokens are printable ASCII: in the node of the text the tokens are quoted, so that none
of them is taken for a number or for nothing, and ids and sizes are plain scalars
(`ServerConfig.ofYaml?_write`). So the extension of a file does not matter
(`ServerConfig.formats_agree`).
-/

namespace Collectors

/-! ### Numbers -/

namespace Yaml

theorem value?_of_isDigit {c : Char} (h : c.isDigit = true) :
    Hex.value? c = some (c.toNat - '0'.toNat) ∧ c.toNat - '0'.toNat < 10 := by
  simp only [Char.isDigit, Bool.and_eq_true, decide_eq_true_eq] at h
  have hle : c.toNat ≤ 57 := h.2
  have hzero : '0'.toNat = 48 := rfl
  exact ⟨if_pos h, by omega⟩

theorem digits?_of_isDigit {cs : List Char} (hne : cs ≠ []) (h : ∀ c ∈ cs, c.isDigit = true) :
    digits? 10 cs = some (Nat.ofDigitChars 10 cs 0) := by
  rw [digits?, if_neg (by simpa using hne)]
  generalize 0 = n
  clear hne
  induction cs generalizing n with
  | nil => rfl
  | cons c cs ih =>
    rw [List.forall_mem_cons] at h
    obtain ⟨hvalue, hlt⟩ := value?_of_isDigit h.1
    rw [Nat.ofDigitChars_cons, List.foldlM_cons, ← ih h.2]
    simp only [hvalue, Option.bind_eq_bind, Option.bind_some, if_pos hlt]

/-- The decimal digits of a number are read as the number. -/
theorem unsigned?_toDigits (n : Nat) : unsigned? (Nat.toDigits 10 n) = some n := by
  have hread : digits? 10 (Nat.toDigits 10 n) = some n := by
    rw [digits?_of_isDigit Nat.toDigits_ne_nil (isDigit_toDigits n),
      Nat.ofDigitChars_ten_toDigits]
  obtain ⟨c, ds, h, hc⟩ := Json.exists_toDigits_eq_cons n
  rw [h] at hread ⊢
  by_cases hzero : c = '0'
  · subst hzero
    obtain rfl := Json.eq_nil_of_toDigits ds h
    exact hread
  · have hplus : c ≠ '+' := ne_of_kind hc rfl
    simp [unsigned?, base?, hplus, hzero, hread]

/-! ### Parts of a written value -/

namespace Document

variable (d : Document)

theorem members?_node (members : List (String × Json)) :
    d.members? (Json.object members).node = some (members.map fun m => (m.1, m.2.node)) := by
  show (Json.nodeMembers members).mapM (fun m => (d.text? m.1).map fun name => (name, m.2)) = _
  induction members with
  | nil => rfl
  | cons m members ih =>
    rw [Json.nodeMembers, List.mapM_cons, ih]
    simp [text?, target?, Json.quoted]

theorem items?_node (items : List Json) :
    d.items? (Json.array items).node = some (items.map Json.node) := by
  show some (Json.nodeItems items) = _
  induction items with
  | nil => rfl
  | cons item items ih => rw [Json.nodeItems, Option.some.inj ih, List.map_cons]

theorem unsigned?_node {n limit : Nat} (h : n ≤ limit) :
    d.unsigned? limit (Json.int n).node = some n := by
  show (Yaml.unsigned? (Nat.toDigits 10 n)).filter _ = _
  rw [unsigned?_toDigits, Option.filter_some, if_pos (by simpa using h)]

/-- A quoted scalar is a text, whatever is written in it. -/
theorem optionalText?_node (token : Option String) :
    d.optionalText? (Json.Codec.text.optional.encode token).node = some token := by
  cases token with
  | none => rfl
  | some t =>
    show some (some (String.ofList t.toList)) = _
    rw [String.ofList_toList]

theorem provider?_node (p : ProviderConfig) :
    d.provider? (ProviderConfig.codec.encode p).node = some p := by
  have hid : p.providerId.toNat ≤ 0xFFFF := Nat.le_of_lt_succ p.providerId.toNat_lt
  have hsize : p.poolSize.toNat ≤ 0xFFFFFFFFFFFFFFFF := Nat.le_of_lt_succ p.poolSize.toNat_lt
  have hmembers : d.members? (ProviderConfig.codec.encode p).node =
      some [("provider_id", (Json.int p.providerId.toNat).node),
        ("token", (Json.Codec.text.optional.encode p.token).node),
        ("pool_size", (Json.int p.poolSize.toNat).node)] := d.members?_node _
  simp [provider?, hmembers, field?, d.unsigned?_node hid, d.unsigned?_node hsize,
    d.optionalText?_node]

theorem providers?_node (providers : List ProviderConfig) :
    d.providers? (Json.array (providers.map ProviderConfig.codec.encode)).node =
      some providers := by
  rw [providers?, items?_node, Option.bind_some]
  induction providers with
  | nil => rfl
  | cons p providers ih =>
    rw [List.map_cons, List.map_cons, List.mapM_cons, ih, d.provider?_node]
    rfl

end Document
end Yaml

/-! ### Configurations -/

theorem Json.flowsItems_iff {items : List Json} : FlowsItems items ↔ ∀ v ∈ items, v.Flows := by
  induction items with
  | nil => simp [FlowsItems]
  | cons item items ih => rw [FlowsItems, ih, List.forall_mem_cons]

namespace ServerConfig

variable {c : ServerConfig}

/-- Whether every token of a configuration is printable ASCII. -/
def hasPlainTokens (c : ServerConfig) : Bool :=
  c.providers.all fun p => p.token.all fun t => t.toList.all isPrintable

theorem flows_encode (h : c.hasPlainTokens = true) : (codec.encode c).Flows := by
  have hproviders : Json.IsName "providers" := ⟨List.all_eq_true.1 rfl, by decide⟩
  have hid : Json.IsName "provider_id" := ⟨List.all_eq_true.1 rfl, by decide⟩
  have htoken : Json.IsName "token" := ⟨List.all_eq_true.1 rfl, by decide⟩
  have hsize : Json.IsName "pool_size" := ⟨List.all_eq_true.1 rfl, by decide⟩
  refine ⟨hproviders, Json.flowsItems_iff.2 fun v hv => ?_, trivial⟩
  obtain ⟨p, hp, rfl⟩ := List.mem_map.1 hv
  refine ⟨hid, trivial, htoken, ?_, hsize, trivial, trivial⟩
  have hplain := List.all_eq_true.1 h p hp
  cases hp' : p.token with
  | none => exact trivial
  | some t =>
    rw [hp'] at hplain
    exact List.all_eq_true.1 hplain

/-- **The text of a configuration is YAML for the configuration.** -/
theorem ofYaml?_write (h : c.hasPlainTokens = true) : ofYaml? (codec.write c) = some c := by
  rw [ofYaml?, Json.Codec.write, Json.ofText?_render (flows_encode h) rfl, Option.bind_some]
  have hmembers : ({ root := (codec.encode c).node, names := {} } : Yaml.Document).members?
      (codec.encode c).node =
        some [("providers", (Json.array (c.providers.map ProviderConfig.codec.encode)).node)] :=
    Yaml.Document.members?_node _ _
  simp [ofDocument?, hmembers, Yaml.Document.field?, Yaml.Document.providers?_node]

/-- What is read from a text in a file is loaded if it is valid. -/
theorem ofFile_toUTF8 {path text : String} {format : ConfigFormat}
    (hpath : ConfigFormat.ofPath? path = some format) (hread : ofText format text = .ok c) :
    ofFile path (.ok text.toUTF8) = c.validate.map fun _ => c := by
  simp only [ofFile, Except.mapError, bind, Except.bind, fromUTF8?_toUTF8, hpath, hread, pure,
    Except.pure]
  cases c.validate <;> rfl

theorem ofText_write (h : c.hasPlainTokens = true) (format : ConfigFormat) :
    ofText format (codec.write c) = .ok c := by
  cases format with
  | json =>
    have hread : codec.read (codec.write c) = .ok c := (reads_codec c).read
    rw [ofText, hread]
    rfl
  | yaml => rw [ofText, ofYaml?_write h]

/-- **The extension of a file does not matter.** A configuration with plain tokens is stored as
its JSON text in files whose names end in one of three ways: from all of them the configuration
itself is loaded if its ids are distinct, and otherwise loading fails for the first id that is
listed twice. -/
theorem formats_agree (h : c.hasPlainTokens = true) :
    ∃ outcome : Except Error ServerConfig,
      (∀ path : String, ∀ e ∈ ["json", "yaml", "yml"],
        (ConfigFormat.fileName? path.toList).bind ConfigFormat.extension? = some e.toList →
          ofFile path (.ok (codec.write c).toUTF8) = outcome) ∧
      ((c.providers.map (·.providerId)).Nodup ∧ outcome = .ok c ∨
        ∃ front id back, c.providers.map (·.providerId) = front ++ id :: back ∧ front.Nodup ∧
          id ∈ front ∧ outcome =
            .error (.configuration ("provider id " ++ toString id ++ " listed twice"))) := by
  -- Both readers find the same configuration, so that the outcome is up to its validation.
  refine ⟨c.validate.map fun _ => c, fun path e he hext => ?_, ?_⟩
  · have hpath : ∃ format, ConfigFormat.ofPath? path = some format := by
      rw [ConfigFormat.ofPath?, hext]
      simp only [List.mem_cons, List.not_mem_nil, or_false] at he
      rcases he with rfl | rfl | rfl
      · exact ⟨.json, rfl⟩
      · exact ⟨.yaml, rfl⟩
      · exact ⟨.yaml, rfl⟩
    obtain ⟨format, hpath⟩ := hpath
    exact ofFile_toUTF8 hpath (ofText_write h format)
  · cases hrepeat : firstRepeat [] (c.providers.map (·.providerId)) with
    | none =>
      refine .inl ⟨(firstRepeat_eq_none_iff.1 hrepeat).1, ?_⟩
      rw [validate, hrepeat]
      rfl
    | some id =>
      obtain ⟨front, back, hids, hnodup, -, hid⟩ := firstRepeat_eq_some hrepeat
      refine .inr ⟨front, id, back, hids, hnodup, hid.resolve_left List.not_mem_nil, ?_⟩
      rw [validate, hrepeat]
      rfl

/-- Tokens that look like nothing, like numbers or like signs of YAML are loaded as they are, and
so are the largest id and size; of two ids that are listed twice the first repeat is reported. -/
theorem formats_agree_tokens :
    let odd : ServerConfig :=
      { providers :=
          [{ providerId := 1, token := some "null" }, { providerId := 2, token := some "123" },
            { providerId := 3, token := some "~" },
            { providerId := 65535, token := some ": #\x7b\x7d\"\\"
              poolSize := 0xFFFFFFFFFFFFFFFF },
            { providerId := 0, token := none }] }
    let twice : ServerConfig :=
      { providers :=
          [{ providerId := 7, token := some "- a" }, { providerId := 3 }, { providerId := 3 },
            { providerId := 7 }] }
    odd.hasPlainTokens = true ∧ twice.hasPlainTokens = true ∧
      ∀ path ∈ ["c.json", "a/c.yaml", "c.yml"],
        ofFile path (.ok (codec.write odd).toUTF8) = .ok odd ∧
        ofFile path (.ok (codec.write twice).toUTF8) =
          .error (.configuration "provider id 3 listed twice") := by
  intro odd twice
  have hpaths : ∀ path ∈ ["c.json", "a/c.yaml", "c.yml"], ∃ e ∈ ["json", "yaml", "yml"],
      (ConfigFormat.fileName? path.toList).bind ConfigFormat.extension? = some e.toList := by
    decide +kernel
  obtain ⟨_, hodd, hends⟩ := formats_agree (c := odd) rfl
  obtain ⟨-, rfl⟩ := hends.resolve_right (by
    rintro ⟨front, id, back, hids, -, hid, -⟩
    have hnodup : (odd.providers.map (·.providerId)).Nodup := by decide
    rw [hids] at hnodup
    exact (List.nodup_append.1 hnodup).2.2 id hid id List.mem_cons_self rfl)
  obtain ⟨_, htwice, hends⟩ := formats_agree (c := twice) rfl
  obtain ⟨front, id, back, hids, hnodup, hid, rfl⟩ := hends.resolve_left fun h =>
    absurd h.1 (by decide)
  have hthree : id = 3 := by
    have hids : [7, 3, 3, 7] = front ++ id :: back := hids
    rcases front with _ | ⟨a, _ | ⟨b, _ | ⟨c, front⟩⟩⟩ <;> grind
  subst hthree
  refine ⟨rfl, rfl, fun path hpath => ?_⟩
  obtain ⟨e, he, hext⟩ := hpaths path hpath
  exact ⟨hodd path e he hext, htwice path e he hext⟩

end ServerConfig
end Collectors
