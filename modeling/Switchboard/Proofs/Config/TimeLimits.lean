import Switchboard.Config
/-!
# Time limits of a configuration

A configuration takes any span of time for its limit and keeps the whole milliseconds, at least one,
of which it has room for 64 bits. A limit for which there is room is kept as it is, and longer limits
stay longer. A limit beyond that is cut, after it was made at least one: it comes out shorter than
many a shorter one, and just the multiples of the room come out as no time at all.
-/
namespace Switchboard

namespace Duration

/-- Fewer nanoseconds than make a second. -/
def Normal (d : Duration) : Prop := d.nanos < 1000000000

instance (d : Duration) : Decidable d.Normal :=
  inferInstanceAs (Decidable (d.nanos < 1000000000))

/-- Spans compare by their seconds first. -/
instance : LE Duration := ⟨fun d e => d.secs < e.secs ∨ d.secs = e.secs ∧ d.nanos ≤ e.nanos⟩

theorem le_iff (d e : Duration) :
    d ≤ e ↔ d.secs.toNat < e.secs.toNat ∨
      d.secs.toNat = e.secs.toNat ∧ d.nanos.toNat ≤ e.nanos.toNat := by
  rw [← UInt64.lt_iff_toNat_lt, UInt64.toNat_inj, ← UInt32.le_iff_toNat_le]
  rfl

theorem Normal.toNat_lt {d : Duration} (h : d.Normal) : d.nanos.toNat < 1000000000 := by
  simpa [Normal, UInt32.lt_iff_toNat_lt] using h

/-- A longer span has no fewer milliseconds. -/
theorem Normal.millis_mono {d e : Duration} (hd : d.Normal) (h : d ≤ e) : d.millis ≤ e.millis := by
  have hnanos := hd.toNat_lt
  simp only [millis]
  rcases (le_iff d e).mp h with hlt | ⟨heq, hle⟩
  · omega
  · omega

@[simp] theorem secs_ofMillis (ms : UInt64) : (ofMillis ms).secs.toNat = ms.toNat / 1000 := by
  simp [ofMillis]

@[simp] theorem nanos_ofMillis (ms : UInt64) :
    (ofMillis ms).nanos.toNat = ms.toNat % 1000 * 1000000 := by
  have hmod : ms.toNat % 1000 < 1000 := Nat.mod_lt _ (by decide)
  simp only [ofMillis, UInt32.toNat_mul, UInt64.toNat_toUInt32, UInt64.toNat_mod,
    UInt64.reduceToNat, UInt32.reduceToNat]
  omega

theorem normal_ofMillis (ms : UInt64) : (ofMillis ms).Normal := by
  simp only [Normal, UInt32.lt_iff_toNat_lt, nanos_ofMillis, UInt32.reduceToNat]
  omega

@[simp] theorem millis_ofMillis (ms : UInt64) : (ofMillis ms).millis = ms.toNat := by
  simp only [millis, secs_ofMillis, nanos_ofMillis]
  omega

theorem ofMillis_le_ofMillis_iff (a b : UInt64) :
    ofMillis a ≤ ofMillis b ↔ a.toNat ≤ b.toNat := by
  simp only [le_iff, secs_ofMillis, nanos_ofMillis]
  omega

end Duration

namespace Config

/-- The longest limit for which there is room. -/
def longestLimit : Duration := .ofMillis (.ofNat (UInt64.size - 1))

theorem le_of_size_le_millis {e : Duration} (he : e.Normal) (h : UInt64.size ≤ e.millis) :
    longestLimit ≤ e := by
  have hnanos := he.toNat_lt
  have hsize : UInt64.size = 18446744073709551616 := rfl
  simp only [Duration.millis, hsize] at h
  simp only [Duration.le_iff, longestLimit, Duration.secs_ofMillis, Duration.nanos_ofMillis,
    UInt64.toNat_ofNat']
  omega

/-- A configuration is valid if none of its settings is zero. -/
theorem validate_eq_ok_iff (c : Config) : c.validate = .ok c ↔ ∀ s, c.get s ≠ 0 := by
  have hall : (∀ s, c.get s ≠ 0) ↔
      c.jobPoolSize ≠ 0 ∧ c.runTimeoutMs ≠ 0 ∧ c.pendingShards ≠ 0 :=
    ⟨fun h => ⟨h .jobPoolSize, h .runTimeoutMs, h .pendingShards⟩,
      fun ⟨hpool, htime, hshards⟩ s => by cases s <;> assumption⟩
  rw [hall, validate]
  by_cases hpool : c.jobPoolSize = 0
  · simp [hpool]
  · by_cases hshards : c.pendingShards = 0
    · simp [hpool, hshards]
    · by_cases htime : c.runTimeoutMs = 0
      · simp [hpool, hshards, htime]
      · simp [hpool, hshards, htime]

theorem get_withRunTimeout_of_ne (c : Config) (d : Duration) {s : Setting}
    (h : s ≠ .runTimeoutMs) : (c.withRunTimeout d).get s = c.get s := by
  cases s with
  | runTimeoutMs => exact absurd rfl h
  | jobPoolSize => rfl
  | pendingShards => rfl

/-- At least one millisecond, and then only as many as there is room for. -/
theorem toNat_runTimeoutMs_withRunTimeout (c : Config) (d : Duration) :
    (c.withRunTimeout d).runTimeoutMs.toNat = max d.millis 1 % UInt64.size := by
  simp [withRunTimeout, UInt64.size]

/-- A valid configuration stays valid if its new limit is not cut to nothing. -/
theorem validate_withRunTimeout_iff {c : Config} (hc : c.validate = .ok c) (d : Duration) :
    (c.withRunTimeout d).validate = .ok (c.withRunTimeout d) ↔
      (d.millis % UInt64.size = 0 → d.millis = 0) := by
  have hlimit := c.toNat_runTimeoutMs_withRunTimeout d
  rw [validate_eq_ok_iff] at hc ⊢
  constructor
  · intro hvalid hcut
    rcases Nat.eq_zero_or_pos d.millis with hnone | hsome
    · exact hnone
    · rw [Nat.max_eq_left hsome, hcut] at hlimit
      exact absurd (UInt64.toNat_inj.mp hlimit) (hvalid .runTimeoutMs)
  · intro hkept s
    by_cases hs : s = .runTimeoutMs
    · subst hs
      intro hzero
      have hnone : max d.millis 1 % UInt64.size = 0 := by
        rw [← hlimit]
        exact congrArg UInt64.toNat hzero
      rcases Nat.eq_zero_or_pos d.millis with hnull | hpos
      · simp [hnull, UInt64.size] at hnone
      · rw [Nat.max_eq_left hpos] at hnone
        omega
    · rw [get_withRunTimeout_of_ne c d hs]
      exact hc s

theorem runTimeout_withRunTimeout_le_iff (c : Config) (d e : Duration) :
    (c.withRunTimeout d).runTimeout ≤ (c.withRunTimeout e).runTimeout ↔
      max d.millis 1 % UInt64.size ≤ max e.millis 1 % UInt64.size := by
  rw [runTimeout, runTimeout, Duration.ofMillis_le_ofMillis_iff,
    toNat_runTimeoutMs_withRunTimeout, toNat_runTimeoutMs_withRunTimeout]

/-- No shorter limit comes out longer than a limit for which there is room; nor than one that is cut
to the longest for which there is. All other limits come out shorter than that one. -/
theorem runTimeout_mono_iff (c : Config) {e : Duration} (he : e.Normal) :
    (∀ d : Duration, d.Normal → d ≤ e →
        (c.withRunTimeout d).runTimeout ≤ (c.withRunTimeout e).runTimeout) ↔
      e.millis < UInt64.size ∨ e.millis % UInt64.size = UInt64.size - 1 := by
  have hsize : 1 < UInt64.size := by decide
  simp only [runTimeout_withRunTimeout_le_iff]
  constructor
  · intro hmono
    rcases Nat.lt_or_ge e.millis UInt64.size with hroom | hbeyond
    · exact Or.inl hroom
    · right
      have hlongest := hmono longestLimit (Duration.normal_ofMillis _)
        (le_of_size_le_millis he hbeyond)
      have hmillis : max longestLimit.millis 1 % UInt64.size = UInt64.size - 1 := by
        simp [longestLimit, UInt64.size]
      have hmax : max e.millis 1 = e.millis := by omega
      rw [hmillis, hmax] at hlongest
      have := Nat.mod_lt e.millis (Nat.zero_lt_of_lt hsize)
      omega
  · rintro (hroom | hcut) d hd hle
    · have hmillis := hd.millis_mono hle
      rw [Nat.mod_eq_of_lt (by omega), Nat.mod_eq_of_lt (by omega)]
      omega
    · have hmax : max e.millis 1 = e.millis := by
        have := Nat.mod_le e.millis UInt64.size
        omega
      rw [hmax, hcut]
      exact Nat.le_sub_one_of_lt (Nat.mod_lt _ (Nat.zero_lt_of_lt hsize))

/-- Whatever the limit, nothing but the limit of a valid configuration changes. The configuration
stays valid if and only if the limit is not cut to nothing, and shorter limits come out no longer if
and only if there is room for the limit or it is cut to the longest of all; so all is well with a
limit for which there is room, and then it is kept to the millisecond. -/
theorem withRunTimeout_usable_iff {c : Config} (hc : c.validate = .ok c) {e : Duration}
    (he : e.Normal) :
    (∀ s, s ≠ .runTimeoutMs → (c.withRunTimeout e).get s = c.get s) ∧
      ((c.withRunTimeout e).validate = .ok (c.withRunTimeout e) ↔
        (e.millis % UInt64.size = 0 → e.millis = 0)) ∧
      ((∀ d : Duration, d.Normal → d ≤ e →
          (c.withRunTimeout d).runTimeout ≤ (c.withRunTimeout e).runTimeout) ↔
        e.millis < UInt64.size ∨ e.millis % UInt64.size = UInt64.size - 1) ∧
      (e.millis < UInt64.size →
        (c.withRunTimeout e).validate = .ok (c.withRunTimeout e) ∧
          (c.withRunTimeout e).runTimeout.millis = max e.millis 1) := by
  refine ⟨fun s => get_withRunTimeout_of_ne c e, validate_withRunTimeout_iff hc e,
    runTimeout_mono_iff c he, fun hroom => ?_⟩
  constructor
  · rw [validate_withRunTimeout_iff hc, Nat.mod_eq_of_lt hroom]
    exact id
  · have hsize : 1 < UInt64.size := by decide
    calc (c.withRunTimeout e).runTimeout.millis
      _ = (c.withRunTimeout e).runTimeoutMs.toNat := Duration.millis_ofMillis _
      _ = max e.millis 1 % UInt64.size := c.toNat_runTimeoutMs_withRunTimeout e
      _ = max e.millis 1 := Nat.mod_eq_of_lt (by omega)

/-- Four minutes and half a millisecond. -/
def shortBreak : Duration := ⟨240, 500000⟩

theorem shortBreak_usable :
    ({} : Config).validate = .ok {} ∧ shortBreak.Normal ∧ shortBreak.millis < UInt64.size ∧
      (({} : Config).withRunTimeout shortBreak).validate =
        .ok (({} : Config).withRunTimeout shortBreak) ∧
      (({} : Config).withRunTimeout shortBreak).runTimeout.millis = 240000 := by
  have hmillis : shortBreak.millis = 240000 := by simp [shortBreak, Duration.millis]
  have hroom : shortBreak.millis < UInt64.size := by simp [hmillis, UInt64.size]
  obtain ⟨hvalid, hlimit⟩ :=
    (withRunTimeout_usable_iff (c := {}) rfl (e := shortBreak) (by decide)).2.2.2 hroom
  refine ⟨rfl, by decide, hroom, hvalid, ?_⟩
  simp [hlimit, hmillis]

/-- As many milliseconds as there is room for, and one more. -/
def overlong : Duration := ⟨18446744073709551, 616000000⟩

/-- The shortest limit that there is no room for comes out as no time at all. -/
theorem overlong_unusable :
    ({} : Config).validate = .ok {} ∧ overlong.Normal ∧
      (({} : Config).withRunTimeout overlong).validate = .error .noTime ∧
      shortBreak ≤ overlong ∧
      ¬ (({} : Config).withRunTimeout shortBreak).runTimeout ≤
        (({} : Config).withRunTimeout overlong).runTimeout := by
  refine ⟨rfl, by decide, rfl, ?_, ?_⟩
  · exact (Duration.le_iff _ _).mpr (Or.inl (by decide))
  · rw [runTimeout_withRunTimeout_le_iff]
    decide

end Config
end Switchboard
