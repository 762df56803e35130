import Switchboard.Proofs.Config.Sources
import Switchboard.Proofs.Text.Numerals
/-!
# The variables of a configuration

A configuration is read from environment variables just if each variable that holds a text holds a
numeral of a number for which there is room and which is not zero; then each setting is that number,
or the default where no text is held. Otherwise the first variable that cannot be read is complained
of, in the order in which they are read, and only if all of them can be read a zero is, in the order
in which zeros are looked for.
-/
namespace Switchboard

namespace Environment

variable (e : Environment)

/-- The variable of a setting holds a text. One that is not set, or whose bytes are no text, holds
none. -/
def Holds (s : Setting) (raw : String) : Prop := e s.envName = some raw.toUTF8

/-- The text that the variable of a setting holds, if any, is a numeral for which there is room. -/
def Readable (s : Setting) : Prop := ∀ raw, e.Holds s raw → ∃ n, Text.Denotes raw n ∧ n < 2 ^ 64

/-- The variable of a setting holds a numeral of zero. -/
def HoldsZero (s : Setting) : Prop := ∃ raw, e.Holds s raw ∧ Text.Denotes raw 0

/-- The first variable that cannot be read, in the order in which they are read, is that of a
setting, and this is its text. -/
def FirstUnreadable (s : Setting) (raw : String) : Prop :=
  e.Holds s raw ∧ (¬ ∃ n, Text.Denotes raw n ∧ n < 2 ^ 64) ∧
    ∃ before after, Setting.all = before ++ s :: after ∧ ∀ t ∈ before, e.Readable t

/-- The first variable with a zero, in the order in which zeros are looked for, is that of a
setting. -/
def FirstZero (s : Setting) : Prop :=
  e.HoldsZero s ∧ ∃ before after, Setting.checks = before ++ s :: after ∧
    ∀ t ∈ before, ¬ e.HoldsZero t

/-- The numbers that the variables hold. -/
def readings : Config.Given := fun s =>
  (e.text? s.envName).bind fun raw => (Text.readNumeral (Text.trim raw)).toOption

end Environment

section Readings

variable {e : Environment} {s : Setting} {raw : String}

theorem Environment.text?_eq_some_iff : e.text? s.envName = some raw ↔ e.Holds s raw := by
  rw [Environment.text?, Environment.Holds]
  constructor
  · intro h
    obtain ⟨bytes, hset, htext⟩ := Option.bind_eq_some_iff.mp h
    rw [String.fromUTF8?] at htext
    split at htext
    · next hvalid =>
      obtain rfl := Option.some.inj htext
      exact hset
    · cases htext
  · intro h
    rw [h, Option.bind_some, String.fromUTF8?]
    exact dif_pos raw.isValidUTF8

/-- A variable holds one text at most. -/
theorem Environment.Holds.unique {raw' : String} (h : e.Holds s raw) (h' : e.Holds s raw') :
    raw = raw' := by
  have hsame := Environment.text?_eq_some_iff.mpr h
  rw [Environment.text?_eq_some_iff.mpr h'] at hsame
  exact (Option.some.inj hsame).symm

/-- A numeral for which there is room is read. -/
theorem Text.exists_denotes_iff :
    (∃ n, Text.Denotes raw n ∧ n < 2 ^ 64) ↔ ∃ v, Text.readNumeral (Text.trim raw) = .ok v := by
  constructor
  · rintro ⟨n, hdenotes, hroom⟩
    refine ⟨n.toUInt64, Text.readNumeral_trim_eq_ok_iff.mpr ?_⟩
    rwa [UInt64.toNat_ofNat_of_lt' hroom]
  · rintro ⟨v, hread⟩
    exact ⟨v.toNat, Text.readNumeral_trim_eq_ok_iff.mp hread, v.toNat_lt_size⟩

theorem Environment.readings_eq_some_iff {v : UInt64} :
    e.readings s = some v ↔ ∃ raw, e.Holds s raw ∧ Text.Denotes raw v.toNat := by
  rw [Environment.readings, Option.bind_eq_some_iff]
  refine exists_congr fun raw => and_congr Environment.text?_eq_some_iff ?_
  rw [← Text.readNumeral_trim_eq_ok_iff]
  cases Text.readNumeral (Text.trim raw) with
  | error cause => simp [Except.toOption]
  | ok w => simp [Except.toOption]

theorem Environment.readings_eq_zero_iff : e.readings s = some 0 ↔ e.HoldsZero s :=
  Environment.readings_eq_some_iff

end Readings

namespace Config

section Overriding

variable {e : Environment} {s : Setting} {raw : String}

/-- A setting takes the number that its variable holds. -/
theorem override_of_readable (h : e.Readable s) (c : Config) :
    override e c s = .ok (c.set s ((e.readings s).getD (c.get s))) := by
  cases htext : e.text? s.envName with
  | none =>
    have hkept : c.set s (c.get s) = c := by cases s <;> rfl
    simp [override, Environment.readings, htext, hkept]
  | some raw =>
    obtain ⟨v, hread⟩ := Text.exists_denotes_iff.mp (h raw (Environment.text?_eq_some_iff.mp htext))
    simp [override, Environment.readings, htext, hread, Except.toOption]

/-- A variable that cannot be read is complained of. -/
theorem exists_override_of_unreadable (h : e.Holds s raw)
    (hbad : ¬ ∃ n, Text.Denotes raw n ∧ n < 2 ^ 64) (c : Config) :
    ∃ cause, override e c s = .error (.notANumber s raw cause) := by
  cases hread : Text.readNumeral (Text.trim raw) with
  | ok v => exact absurd (Text.exists_denotes_iff.mpr ⟨v, hread⟩) hbad
  | error cause => exact ⟨cause, by simp [override, Environment.text?_eq_some_iff.mpr h, hread]⟩

/-- Variables that can be read are taken one after the other. -/
theorem foldlM_override (settings : List Setting) (h : ∀ s ∈ settings, e.Readable s)
    (c : Config) (rest : List Setting) :
    (settings ++ rest).foldlM (override e) c =
      rest.foldlM (override e)
        (settings.foldl (fun c s => c.set s ((e.readings s).getD (c.get s))) c) := by
  induction settings generalizing c with
  | nil => rfl
  | cons s settings ih =>
    obtain ⟨hs, hsettings⟩ := List.forall_mem_cons.mp h
    rw [List.cons_append, List.foldlM_cons, override_of_readable hs]
    exact ih hsettings _

/-- When all variables can be read, only a zero is complained of. -/
theorem ofEnvironment_of_readable (h : ∀ s, e.Readable s) :
    ofEnvironment e = e.readings.outcome := by
  have hread := foldlM_override Setting.all (fun s _ => h s) {} []
  rw [List.append_nil] at hread
  rw [ofEnvironment, hread]
  exact e.readings.validate_config

/-- Otherwise the first variable that cannot be read is complained of. -/
theorem exists_ofEnvironment_of_unreadable (h : e.FirstUnreadable s raw) :
    ∃ cause, ofEnvironment e = .error (.notANumber s raw cause) := by
  obtain ⟨hholds, hbad, before, after, hall, hbefore⟩ := h
  obtain ⟨cause, hoverride⟩ := exists_override_of_unreadable hholds hbad
    (before.foldl (fun c s => c.set s ((e.readings s).getD (c.get s))) {})
  refine ⟨cause, ?_⟩
  rw [ofEnvironment, hall, foldlM_override before hbefore, List.foldlM_cons, hoverride]
  rfl

/-- All variables can be read, or there is a first that cannot. -/
theorem readable_or_firstUnreadable (e : Environment) :
    (∀ s, e.Readable s) ∨ ∃ s raw, e.FirstUnreadable s raw := by
  classical
  cases hfind : Setting.all.find? (¬ e.Readable ·) with
  | none =>
    refine Or.inl fun s => ?_
    have hs : s ∈ Setting.all := by cases s <;> decide
    simpa using List.find?_eq_none.mp hfind s hs
  | some s =>
    obtain ⟨hs, before, after, hall, hbefore⟩ := List.find?_eq_some_iff_append.mp hfind
    have hbad : ¬ e.Readable s := by simpa using hs
    simp only [Environment.Readable, not_forall] at hbad
    obtain ⟨raw, hholds, hraw⟩ := hbad
    exact Or.inr ⟨s, raw, hholds, hraw, before, after, hall, fun t ht => by simpa using hbefore t ht⟩

theorem firstZero_iff :
    e.FirstZero s ↔ Setting.checks.find? (e.readings · = some 0) = some s := by
  rw [List.find?_eq_some_iff_append]
  simp [Environment.FirstZero, Environment.readings_eq_zero_iff]

/-- Two complaints about zeros are the same only if they are about the same setting. -/
theorem complaint_inj {s t : Setting} : s.complaint = t.complaint ↔ s = t := by
  cases s <;> cases t <;> simp [Setting.complaint]

/-- When all variables can be read, the first zero is complained of. -/
theorem outcome_readings_eq_error_iff :
    e.readings.outcome = .error s.complaint ↔ e.FirstZero s := by
  rw [firstZero_iff, Given.outcome]
  cases Setting.checks.find? (e.readings · = some 0) with
  | none => simp
  | some t => simp [complaint_inj]

/-- When all variables can be read and there is no zero, settings are what is read. -/
theorem outcome_readings_eq_ok_iff {c : Config} :
    e.readings.outcome = .ok c ↔ (∀ s, ¬ e.HoldsZero s) ∧ e.readings.config = c := by
  rw [Given.outcome]
  cases hfind : Setting.checks.find? (e.readings · = some 0) with
  | none =>
    have hnone : ∀ s, ¬ e.HoldsZero s := by
      intro s hzero
      have hs : s ∈ Setting.checks := by cases s <;> decide
      have hreading := List.find?_eq_none.mp hfind s hs
      simp [Environment.readings_eq_zero_iff.mpr hzero] at hreading
    simp [hnone]
  | some s =>
    have hzero : e.HoldsZero s := (firstZero_iff.mpr hfind).1
    simp only [reduceCtorEq, false_iff, not_and]
    intro hnone
    exact absurd hzero (hnone s)

/-- A configuration comes of variables that can all be read and hold no zero. -/
theorem ofEnvironment_eq_ok_iff {c : Config} :
    ofEnvironment e = .ok c ↔
      (∀ s, e.Readable s) ∧ (∀ s, ¬ e.HoldsZero s) ∧ e.readings.config = c := by
  rcases readable_or_firstUnreadable e with hall | ⟨s, raw, hfirst⟩
  · rw [ofEnvironment_of_readable hall, outcome_readings_eq_ok_iff]
    simp [hall]
  · obtain ⟨cause, herror⟩ := exists_ofEnvironment_of_unreadable hfirst
    rw [herror]
    simp only [reduceCtorEq, false_iff]
    rintro ⟨hall, -⟩
    exact hfirst.2.1 (hall s raw hfirst.1)

end Overriding

section Settings

variable {e : Environment} {c : Config}

/-- What it means for a configuration to say what the variables hold: each setting is the number that
its variable holds, which is not zero and for which there is room, or the default. -/
def Reflects (c : Config) (e : Environment) : Prop :=
  ∀ s, (∀ raw, e.Holds s raw →
      ∃ n, Text.Denotes raw n ∧ 1 ≤ n ∧ n < 2 ^ 64 ∧ (c.get s).toNat = n) ∧
    ((∀ raw, ¬ e.Holds s raw) → c.get s = get {} s)

/-- A numeral that a variable holds is its reading. -/
theorem readings_of_denotes {s : Setting} {raw : String} {n : Nat} (h : e.Holds s raw)
    (hdenotes : Text.Denotes raw n) (hroom : n < 2 ^ 64) : e.readings s = some n.toUInt64 :=
  Environment.readings_eq_some_iff.mpr
    ⟨raw, h, by rwa [UInt64.toNat_ofNat_of_lt' hroom]⟩

/-- A setting is the number that its variable holds. -/
theorem toNat_value_of_denotes {s : Setting} {raw : String} {n : Nat} (h : e.Holds s raw)
    (hdenotes : Text.Denotes raw n) (hroom : n < 2 ^ 64) : (e.readings.value s).toNat = n := by
  rw [Given.value, readings_of_denotes h hdenotes hroom, Option.getD_some]
  exact UInt64.toNat_ofNat_of_lt' hroom

/-- A setting whose variable holds nothing keeps its default. -/
theorem value_of_unset {s : Setting} (h : ∀ raw, ¬ e.Holds s raw) :
    e.readings.value s = get {} s := by
  have hreading : e.readings s = none := by
    rw [Option.eq_none_iff_forall_not_mem]
    intro v hv
    obtain ⟨raw, hholds, -⟩ := Environment.readings_eq_some_iff.mp hv
    exact h raw hholds
  rw [Given.value, hreading, Option.getD_none]

theorem reflects_of_ofEnvironment (h : ofEnvironment e = .ok c) : c.Reflects e := by
  obtain ⟨hall, hnone, rfl⟩ := ofEnvironment_eq_ok_iff.mp h
  refine fun s => ⟨fun raw hholds => ?_, fun hunset => ?_⟩
  · obtain ⟨n, hdenotes, hroom⟩ := hall s raw hholds
    have hpositive : n ≠ 0 := by
      rintro rfl
      exact hnone s ⟨raw, hholds, hdenotes⟩
    refine ⟨n, hdenotes, Nat.pos_of_ne_zero hpositive, hroom, ?_⟩
    rw [Given.get_config, toNat_value_of_denotes hholds hdenotes hroom]
  · rw [Given.get_config, value_of_unset hunset]

/-- Numerals that are not zero and for which there is room are all that a configuration needs. -/
theorem ofEnvironment_of_numerals (h : ∀ s raw, e.Holds s raw →
    ∃ n, Text.Denotes raw n ∧ 1 ≤ n ∧ n < 2 ^ 64) : ofEnvironment e = .ok e.readings.config := by
  refine ofEnvironment_eq_ok_iff.mpr ⟨fun s raw hholds => ?_, fun s hzero => ?_, rfl⟩
  · obtain ⟨n, hdenotes, -, hroom⟩ := h s raw hholds
    exact ⟨n, hdenotes, hroom⟩
  · obtain ⟨raw, hholds, hdenotes⟩ := hzero
    obtain ⟨n, hdenotes', hpositive, hroom⟩ := h s raw hholds
    have hsame := readings_of_denotes hholds hdenotes (by decide)
    rw [readings_of_denotes hholds hdenotes' hroom, Option.some.injEq] at hsame
    have hzero : n = 0 := by
      rw [← UInt64.toNat_ofNat_of_lt' hroom]
      exact congrArg UInt64.toNat hsame
    omega

/-- Whatever reflects the variables is what comes of them. -/
theorem ofEnvironment_of_reflects (h : c.Reflects e) : ofEnvironment e = .ok c := by
  have hread := ofEnvironment_of_numerals (e := e) fun s raw hholds => by
    obtain ⟨n, hdenotes, hpositive, hroom, -⟩ := (h s).1 raw hholds
    exact ⟨n, hdenotes, hpositive, hroom⟩
  have hsame : e.readings.config = c := by
    refine ext_get fun s => ?_
    rw [Given.get_config]
    by_cases hset : ∃ raw, e.Holds s raw
    · obtain ⟨raw, hholds⟩ := hset
      obtain ⟨n, hdenotes, -, hroom, hn⟩ := (h s).1 raw hholds
      exact UInt64.toNat_inj.mp ((toNat_value_of_denotes hholds hdenotes hroom).trans hn.symm)
    · rw [not_exists] at hset
      rw [(h s).2 hset, value_of_unset hset]
  rw [hread, hsame]

end Settings

/-- What comes of the environment, whatever bytes its variables hold. A configuration comes of it just
if each text that a variable holds is a numeral of a number that is not zero and for which there is
room; each setting is then that number, or the default. Otherwise it is the first variable that cannot
be read that is named, with its text as it is, and only if all can be read the first zero. -/
theorem ofEnvironment_grammar (e : Environment) :
    (∀ c, ofEnvironment e = .ok c ↔ ∀ s,
      (∀ raw, e.Holds s raw →
        ∃ n, Text.Denotes raw n ∧ 1 ≤ n ∧ n < 2 ^ 64 ∧ (c.get s).toNat = n) ∧
      ((∀ raw, ¬ e.Holds s raw) → c.get s = get {} s)) ∧
    ((∃ c, ofEnvironment e = .ok c) ↔ ∀ s raw, e.Holds s raw →
      ∃ n, Text.Denotes raw n ∧ 1 ≤ n ∧ n < 2 ^ 64) ∧
    (∀ s raw, (∃ cause, ofEnvironment e = .error (.notANumber s raw cause)) ↔
      e.FirstUnreadable s raw) ∧
    (∀ s, ofEnvironment e = .error s.complaint ↔ (∀ t, e.Readable t) ∧ e.FirstZero s) ∧
    ∀ err, ofEnvironment e = .error err →
      (∃ s raw cause, err = .notANumber s raw cause ∧
        err.texts.head? = some (s.envName ++ "=" ++ Text.quoted raw ++ " is not a valid number")) ∨
      ∃ s : Setting, err = s.complaint := by
  have hok (c : Config) : ofEnvironment e = .ok c ↔ c.Reflects e :=
    ⟨reflects_of_ofEnvironment, ofEnvironment_of_reflects⟩
  refine ⟨hok, ⟨?_, fun h => ⟨_, ofEnvironment_of_numerals h⟩⟩, ?_⟩
  · rintro ⟨c, hc⟩ s raw hholds
    obtain ⟨n, hdenotes, hpositive, hroom, -⟩ := ((hok c).mp hc s).1 raw hholds
    exact ⟨n, hdenotes, hpositive, hroom⟩
  rcases readable_or_firstUnreadable e with hall | ⟨s, raw, hfirst⟩
  · -- all can be read, so that only zeros are complained of
    have houtcome := ofEnvironment_of_readable hall
    rw [houtcome]
    have hzero (err : ConfigError) (h : e.readings.outcome = .error err) :
        ∃ s : Setting, err = s.complaint := by
      rw [Given.outcome] at h
      split at h
      · exact ⟨_, (Except.error.inj h).symm⟩
      · cases h
    refine ⟨fun s raw => ⟨?_, fun hfirst => ?_⟩, fun s => ?_, fun err h => Or.inr (hzero err h)⟩
    · rintro ⟨cause, h⟩
      obtain ⟨t, ht⟩ := hzero _ h
      cases t <;> cases ht
    · exact absurd (hall s raw hfirst.1) hfirst.2.1
    · rw [outcome_readings_eq_error_iff, and_iff_right hall]
  · obtain ⟨cause, herror⟩ := exists_ofEnvironment_of_unreadable hfirst
    rw [herror]
    refine ⟨fun s' raw' => ⟨?_, fun hfirst' => ?_⟩, fun s' => ⟨fun h => ?_, ?_⟩, fun err h => ?_⟩
    · rintro ⟨cause', h⟩
      cases h
      exact hfirst
    · obtain ⟨cause', herror'⟩ := exists_ofEnvironment_of_unreadable hfirst'
      exact ⟨cause', herror.symm.trans herror'⟩
    · cases s' <;> cases h
    · rintro ⟨hall, -⟩
      exact absurd (hall s raw hfirst.1) hfirst.2.1
    · cases h
      exact Or.inl ⟨s, raw, cause, rfl, rfl⟩

/-- Seven slots, with a sign, zeros in front and blanks around; a time limit whose bytes are no text;
and no shards. -/
def padded : Environment
  | "TESTER_JOB_POOL_SIZE" => some " +007\u2003".toUTF8
  | "TESTER_RUN_TIMEOUT_MS" => some ⟨#[255]⟩
  | _ => none

/-- No slots, a time limit that is no number, and more shards than there is room for. -/
def mistaken : Environment
  | "TESTER_JOB_POOL_SIZE" => some "0".toUTF8
  | "TESTER_RUN_TIMEOUT_MS" => some " 12a".toUTF8
  | _ => some "18446744073709551616".toUTF8

/-- The slots are read, and the time limit is named before the zero in front of it. -/
theorem ofEnvironment_padded_mistaken :
    ofEnvironment padded = .ok { jobPoolSize := 7 } ∧
    ∃ cause, ofEnvironment mistaken = .error (.notANumber .runTimeoutMs " 12a" cause) := by
  have hnone : ∀ raw, ¬ padded.Holds .runTimeoutMs raw := by
    intro raw hholds
    have htext := Environment.text?_eq_some_iff.mpr hholds
    have hnothing : padded.text? Setting.runTimeoutMs.envName = none := by decide +kernel
    rw [hnothing] at htext
    cases htext
  have hslots : padded.Holds .jobPoolSize " +007\u2003" := rfl
  have hzero : mistaken.Holds .jobPoolSize "0" := rfl
  refine ⟨((ofEnvironment_grammar padded).1 _).mpr fun s => ?_,
    ((ofEnvironment_grammar mistaken).2.2.1 .runTimeoutMs " 12a").mpr ⟨rfl, ?_, ?_⟩⟩
  · cases s with
    | jobPoolSize =>
      refine ⟨fun raw hholds => ?_, fun h => absurd hslots (h _)⟩
      obtain rfl := hslots.unique hholds
      exact ⟨7, ⟨[' '], ['+'], ['0', '0', '7'], ['\u2003'], by decide,
        List.forall_mem_singleton.mpr rfl, List.forall_mem_singleton.mpr (by decide +kernel),
        .inr rfl, by simp, by simp, rfl⟩, by decide, by decide, rfl⟩
    | runTimeoutMs => exact ⟨fun raw hholds => absurd hholds (hnone raw), fun _ => rfl⟩
    | pendingShards => exact ⟨fun raw hholds => (nomatch hholds), fun _ => rfl⟩
  · rw [Text.exists_denotes_iff]
    rintro ⟨v, hread⟩
    have hbad : Text.readNumeral (Text.trim " 12a") = .error .invalidDigit := by decide +kernel
    rw [hbad] at hread
    cases hread
  · refine ⟨[.jobPoolSize], [.pendingShards], rfl, fun t ht raw hholds => ?_⟩
    obtain rfl := List.mem_singleton.mp ht
    obtain rfl := hzero.unique hholds
    exact ⟨0, ⟨[], [], ['0'], [], by decide, nofun, nofun, .inl rfl, by simp, by simp, rfl⟩,
      by decide⟩

end Config
end Switchboard
