import Switchboard.Config.Document
import Switchboard.Config.Environment
import Switchboard.Proofs.Json.Spelling
/-!
# Sources of a configuration

Values for some of the settings can be put into the defaults by hand, into environment variables or
into a document. The configuration is the same: the defaults with these values, or else the complaint
about a zero among them, of which the first in the order of the checks is named. No source gives out
a configuration that would be refused.
-/
namespace Switchboard

namespace Setting

/-- All settings, in the order in which they are checked. -/
def checks : List Setting := [jobPoolSize, pendingShards, runTimeoutMs]

/-- The complaint about a setting that is zero. -/
def complaint : Setting → ConfigError
  | jobPoolSize => .noPermits
  | pendingShards => .noShards
  | runTimeoutMs => .noTime

@[simp] theorem ofKey?_key (s : Setting) : ofKey? s.key = some s := by
  cases s <;> rfl

/-- The key of a setting needs no escapes. -/
theorem isPlain_of_mem_key {s : Setting} : ∀ c ∈ s.key.toList, Json.IsPlain c := by
  cases s <;> simp [key, Json.IsPlain]

end Setting

namespace Config

/-- A configuration is known by the values of its settings. -/
theorem ext_get {c d : Config} (h : ∀ s, c.get s = d.get s) : c = d := by
  obtain ⟨jobPoolSize, runTimeoutMs, pendingShards⟩ := c
  obtain rfl : jobPoolSize = d.jobPoolSize := h .jobPoolSize
  obtain rfl : runTimeoutMs = d.runTimeoutMs := h .runTimeoutMs
  obtain rfl : pendingShards = d.pendingShards := h .pendingShards
  rfl

/-- A configuration is accepted as it is, or the first check that finds a zero complains. -/
theorem validate_eq (c : Config) :
    c.validate = match Setting.checks.find? (c.get · = 0) with
      | some s => .error s.complaint
      | none => .ok c := by
  by_cases hpool : c.jobPoolSize = 0
  · simp [validate, Setting.checks, get, hpool, Setting.complaint]
  · by_cases hshards : c.pendingShards = 0
    · simp [validate, Setting.checks, get, hpool, hshards, Setting.complaint]
    · by_cases htime : c.runTimeoutMs = 0
      · simp [validate, Setting.checks, get, hpool, hshards, htime, Setting.complaint]
      · simp [validate, Setting.checks, get, hpool, hshards, htime]

/-- What is accepted is accepted again. -/
theorem validate_of_validate_eq_ok {c d : Config} (h : c.validate = .ok d) : d.validate = .ok d := by
  have hsame : d = c := by
    rw [validate_eq] at h
    cases hfind : Setting.checks.find? (c.get · = 0) with
    | none =>
      rw [hfind] at h
      exact (Except.ok.inj h).symm
    | some s =>
      rw [hfind] at h
      exact nomatch h
  rw [hsame] at h ⊢
  exact h

/-! ## What is given -/

/-- The values that are given for settings, and none for the others. -/
abbrev Given := Setting → Option UInt64

namespace Given

/-- The value of a setting: what is given, or the default. -/
def value (given : Given) (s : Setting) : UInt64 := (given s).getD (get {} s)

/-- The defaults with what is given in their place. -/
def config (given : Given) : Config where
  jobPoolSize := given.value .jobPoolSize
  runTimeoutMs := given.value .runTimeoutMs
  pendingShards := given.value .pendingShards

/-- What there is of given values: the complaint about the first zero that is found among them, or
the defaults with them in their place. -/
def outcome (given : Given) : Except ConfigError Config :=
  match Setting.checks.find? (given · = some 0) with
  | some s => .error s.complaint
  | none => .ok given.config

@[simp] theorem get_config (given : Given) (s : Setting) : given.config.get s = given.value s := by
  cases s <;> rfl

/-- No default is zero, so that a zero was given. -/
theorem value_eq_zero_iff (given : Given) (s : Setting) : given.value s = 0 ↔ given s = some 0 := by
  unfold value
  cases hgiven : given s with
  | none => cases s <;> simp [get]
  | some v => simp

theorem validate_config (given : Given) : given.config.validate = given.outcome := by
  simp only [validate_eq, outcome, get_config, value_eq_zero_iff]

/-- The settings in a list, each at most once and in any order, are those given. -/
structure Listed (given : Given) (settings : List (Setting × UInt64)) : Prop where
  once : (settings.map Prod.fst).Nodup
  lookup : ∀ s, settings.lookup s = given s

/-- The variables of the settings hold what is given in decimal, and the others are not set. -/
def Exported (given : Given) (e : Environment) : Prop :=
  ∀ s : Setting, e s.envName = (given s).map fun v => (toString v).toUTF8

end Given

/-- Variables that say what is given. -/
def Given.environment (given : Given) : Environment := fun name =>
  ((Setting.all.find? (·.envName = name)).bind given).map fun v => (toString v).toUTF8

theorem Given.exported_environment (given : Given) : given.Exported given.environment := by
  intro s
  cases s <;> simp [environment, Setting.all, Setting.envName]

/-- The members of a document for settings. -/
def members (settings : List (Setting × UInt64)) : List (String × UInt64) :=
  settings.map fun s => (s.1.key, s.2)

/-! ## Replacing settings -/

/-- The last value for a setting that is replaced, if there is only one at most. -/
theorem get_foldl_set {settings : List (Setting × UInt64)} (honce : (settings.map Prod.fst).Nodup)
    (c : Config) (t : Setting) :
    (settings.foldl (fun c s => c.set s.1 s.2) c).get t = (settings.lookup t).getD (c.get t) := by
  induction settings generalizing c with
  | nil => rfl
  | cons first settings ih =>
    obtain ⟨s, v⟩ := first
    obtain ⟨hnew, hrest⟩ := List.nodup_cons.mp honce
    rw [List.foldl_cons, ih hrest, List.lookup_cons]
    by_cases hst : t = s
    · subst t
      have hnone : settings.lookup s = none := by
        refine List.lookup_eq_none_iff.mpr fun p hp => ?_
        simp only [bne_iff_ne, ne_eq]
        rintro rfl
        exact hnew (List.mem_map.mpr ⟨p, hp, rfl⟩)
      simp [hnone]
    · have hne : (t == s) = false := by simpa using hst
      simp [hne, get_set_of_ne c v hst]

theorem Given.Listed.replacing {given : Given} {settings : List (Setting × UInt64)}
    (h : given.Listed settings) : replacing settings = given.config := by
  refine ext_get fun s => ?_
  rw [Config.replacing, get_foldl_set h.once, h.lookup, Given.get_config]
  rfl

/-! ## Environment variables -/

/-- A setting takes what its variable says in decimal. -/
theorem override_eq {given : Given} {e : Environment} (h : given.Exported e) (c : Config)
    (s : Setting) : override e c s = .ok (c.set s ((given s).getD (c.get s))) := by
  have hutf8 : ∀ text : String, String.fromUTF8? text.toUTF8 = some text := by
    intro text
    rw [String.fromUTF8?]
    exact dif_pos text.isValidUTF8
  cases hgiven : given s with
  | none =>
    have hunset : e.text? s.envName = none := by simp [Environment.text?, h s, hgiven]
    have hkept : c.set s (c.get s) = c := by cases s <;> rfl
    simp [override, hunset, hkept]
  | some v =>
    have hset : e.text? s.envName = some (toString v) := by
      rw [Environment.text?, h s, hgiven]
      exact hutf8 _
    simp [override, hset]

theorem Given.Exported.foldlM {given : Given} {e : Environment} (h : given.Exported e) :
    Setting.all.foldlM (override e) {} = .ok given.config := by
  simp only [Setting.all, List.foldlM_cons, List.foldlM_nil, override_eq h]
  rfl

/-! ## Documents -/

/-- Members for settings that did not come before are taken, each once. -/
theorem ofMembers?_members {settings : List (Setting × UInt64)}
    (honce : (settings.map Prod.fst).Nodup) (c : Config) {seen : List Setting}
    (hseen : ∀ s ∈ settings.map Prod.fst, s ∉ seen) :
    ofMembers? c seen ((members settings).map fun m => (m.1, .number (.natural m.2))) =
      some (settings.foldl (fun c s => c.set s.1 s.2) c) := by
  induction settings generalizing c seen with
  | nil => rfl
  | cons first settings ih =>
    obtain ⟨s, v⟩ := first
    obtain ⟨hnew, hrest⟩ := List.nodup_cons.mp honce
    have hs : s ∉ seen := hseen s List.mem_cons_self
    have hmore : ∀ t ∈ settings.map Prod.fst, t ∉ s :: seen := by
      intro t ht
      rw [List.mem_cons, not_or]
      refine ⟨?_, hseen t (List.mem_cons_of_mem s ht)⟩
      rintro rfl
      exact hnew ht
    rw [List.foldl_cons, ← ih hrest (c.set s v) hmore]
    simp [members, ofMembers?, hs, Json.natural?]

theorem Given.Listed.ofJson? {given : Given} {settings : List (Setting × UInt64)}
    (h : given.Listed settings) : ofJson? (Json.ofNaturals (members settings)) = some given.config := by
  rw [← h.replacing]
  exact ofMembers?_members h.once {} fun _ _ => List.not_mem_nil

/-- A document that says what is given, however it is written. -/
theorem Given.Listed.ofDocument {given : Given} {settings : List (Setting × UInt64)}
    (h : given.Listed settings) {text : String}
    (htext : Json.read? text = some (Json.ofNaturals (members settings))) :
    ofDocument text = given.outcome := by
  rw [Config.ofDocument, htext, Option.bind_some, h.ofJson?, ← given.validate_config]

/-! ## What all sources share -/

/-- Values for settings give the same configuration or complaint when they replace the defaults, in
any order, when they stand in environment variables, and when they stand in a document, in any order
and however it is spelled. No configuration from a source would be refused. -/
theorem sources_agree (given : Given) :
    (given.config.validate = given.outcome ∧
      ∀ settings, given.Listed settings → ofSettings settings = given.outcome) ∧
    (∀ e, given.Exported e → ofEnvironment e = given.outcome) ∧
    (∀ settings, given.Listed settings →
      (∀ text, Json.read? text = some (Json.ofNaturals (members settings)) →
        ofDocument text = given.outcome) ∧
      (∀ text, Json.Spells (Json.naturalsTokens (members settings)) text.toList →
        ofDocument text = given.outcome) ∧
      ofDocument (Json.ofNaturals (members settings)).render = given.outcome) ∧
    (∀ e c, ofEnvironment e = .ok c → c.validate = .ok c) ∧
    ∀ text c, ofDocument text = .ok c → c.validate = .ok c := by
  refine ⟨⟨given.validate_config, fun settings h => ?_⟩, fun e h => ?_, fun settings h => ?_,
    fun e c h => ?_, fun text c h => ?_⟩
  · rw [ofSettings, h.replacing, given.validate_config]
  · rw [ofEnvironment, h.foldlM]
    exact given.validate_config
  · have hspelled : ∀ text : String,
        Json.Spells (Json.naturalsTokens (members settings)) text.toList →
          Config.ofDocument text = given.outcome :=
      fun text htext => h.ofDocument htext.read?_ofNaturals
    refine ⟨fun text => h.ofDocument, hspelled, hspelled _ (Json.spells_render fun m hm => ?_)⟩
    obtain ⟨s, -, rfl⟩ := List.mem_map.mp hm
    exact Setting.isPlain_of_mem_key
  · rw [ofEnvironment] at h
    cases hfold : Setting.all.foldlM (override e) {} with
    | error err =>
      rw [hfold] at h
      exact nomatch h
    | ok read =>
      rw [hfold] at h
      exact validate_of_validate_eq_ok h
  · rw [ofDocument] at h
    cases hread : (Json.read? text).bind Config.ofJson? with
    | none =>
      rw [hread] at h
      exact nomatch h
    | some read =>
      rw [hread] at h
      exact validate_of_validate_eq_ok h

/-- A limit and a number of shards that are zero. -/
def zeros : Given
  | .jobPoolSize => none
  | .runTimeoutMs | .pendingShards => some 0

/-- The limit is named first by hand and in the document, and yet the shards are complained of. -/
theorem sources_agree_zeros :
    ofSettings [(.runTimeoutMs, 0), (.pendingShards, 0)] = .error .noShards ∧
    ofEnvironment zeros.environment = .error .noShards ∧
    ∃ text, Json.read? text = some (.object [("run_timeout_ms", .number (.natural 0)),
        ("pending_shards", .number (.natural 0))]) ∧
      text.toList.head? = some ' ' ∧ ofDocument text = .error .noShards := by
  have hlisted : zeros.Listed [(.runTimeoutMs, 0), (.pendingShards, 0)] :=
    ⟨by decide, fun s => by cases s <;> rfl⟩
  have hspelled : Json.Spells (Json.naturalsTokens
      (members [(.runTimeoutMs, 0), (.pendingShards, 0)]))
      (' ' :: (Json.ofNaturals (members [(.runTimeoutMs, 0), (.pendingShards, 0)])).render.toList) :=
    .blank rfl (Json.spells_render fun m hm => by
      obtain ⟨s, -, rfl⟩ := List.mem_map.mp hm
      exact Setting.isPlain_of_mem_key)
  rw [← String.toList_ofList (l := ' ' :: _)] at hspelled
  obtain ⟨⟨-, hhand⟩, henv, hdoc, -⟩ := sources_agree zeros
  exact ⟨hhand _ hlisted, henv _ zeros.exported_environment, _, hspelled.read?_ofNaturals, by simp,
    (hdoc _ hlisted).2.1 _ hspelled⟩

end Config
end Switchboard
