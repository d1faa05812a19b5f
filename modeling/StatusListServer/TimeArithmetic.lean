import StatusListServer.Deployment
import StatusListServer.StatusToken

/-!
# Seconds of a configuration

The lifetime of tokens and the retention of snapshots are unsigned 64-bit settings
that are cast to signed ones before they are added to a time or subtracted from it.
A setting of `2 ^ 63` or more changes its sign, and a sum past `2 ^ 63` wraps around.
-/

namespace StatusListServer

open KeyedTable

/-- The cutoff of a scheduled cleanup; without retention there is none. -/
def scheduledCutoff (snapshotRetentionSecs : BitVec 64) (now : Int) : Option Int :=
  if snapshotRetentionSecs = 0 then none
  else some (wrapI64 (now - snapshotRetentionSecs.toInt))

/-- The times of a configuration are what the settings say: for a record stamped
`iat`, a token issued `now`, and a cleanup run `now` on any adapter. -/
structure TimesExact (tokenExpSecs snapshotRetentionSecs : BitVec 64) (iat now : Int) : Prop where
  snapshot : ∀ snapshotId (record : StatusListRecord), record.updatedAt = iat →
    (snapshotOf snapshotId record tokenExpSecs).iat = iat ∧
      (snapshotOf snapshotId record tokenExpSecs).exp = iat + tokenExpSecs.toNat
  token : ∀ settings : TokenSettings, settings.tokenExpSecs = tokenExpSecs →
    defaultWindow settings now = (now, now + tokenExpSecs.toNat)
  cutoff : ∀ cutoff ∈ scheduledCutoff snapshotRetentionSecs now,
    cutoff = now - snapshotRetentionSecs.toNat
  kept : ∀ cutoff ∈ scheduledCutoff snapshotRetentionSecs now,
    ∀ (backend : Backend) (db db' : Database) (answer : Except StatusListError Nat),
      backend.Answers (.deleteOlderThan cutoff) db answer db' →
      ∀ s ∈ db.history, now - snapshotRetentionSecs.toNat ≤ s.exp → s ∈ db'.history

/-- A number is its own signed 64-bit value when it fits. -/
theorem wrapI64_eq_self_iff (n : Int) : wrapI64 n = n ↔ -2 ^ 63 ≤ n ∧ n < 2 ^ 63 := by
  simp only [wrapI64, Int.bmod]
  split <;> omega

/-- Adding a signed or an unsigned count is the same. -/
theorem wrapI64_add_toInt (n : Int) (secs : BitVec 64) :
    wrapI64 (n + secs.toInt) = wrapI64 (n + secs.toNat) := by
  rw [wrapI64, wrapI64, BitVec.toInt_eq_toNat_bmod, Int.add_bmod_bmod]

/-- So is subtracting it. -/
theorem wrapI64_sub_toInt (n : Int) (secs : BitVec 64) :
    wrapI64 (n - secs.toInt) = wrapI64 (n - secs.toNat) := by
  rw [wrapI64, wrapI64, BitVec.toInt_eq_toNat_bmod, Int.sub_bmod_bmod]

/-- The end of a lifetime that starts at a time of the epoch. -/
theorem expOf_eq_iff {iat : Int} (hiat : 0 ≤ iat) (secs : BitVec 64) :
    expOf iat secs = iat + secs.toNat ↔ iat + secs.toNat < 2 ^ 63 := by
  rw [expOf, wrapI64_add_toInt, wrapI64_eq_self_iff]
  omega

/-- The cutoff of a retention. -/
theorem cutoff_eq_iff {now : Int} (hnow : now < 2 ^ 63) (secs : BitVec 64) :
    wrapI64 (now - secs.toInt) = now - secs.toNat ↔ secs.toNat ≤ now + 2 ^ 63 := by
  rw [wrapI64_sub_toInt, wrapI64_eq_self_iff]
  omega

/-- **When the seconds of a configuration are exact.**  For every lifetime and every
retention, every stamp `iat` and every time `now` that are not negative and fit: the
end of a snapshot and of a token are their beginning plus the lifetime, a cleanup cuts
off at the time less the retention, and it deletes no snapshot that ends later, exactly
when neither sum reaches `2 ^ 63` and the retention does not exceed the time by more
than `2 ^ 63`. -/
theorem times_exact_iff (tokenExpSecs snapshotRetentionSecs : BitVec 64) {iat now : Int}
    (hiat : 0 ≤ iat) (hnow : 0 ≤ now) (hfits : now < 2 ^ 63) :
    TimesExact tokenExpSecs snapshotRetentionSecs iat now ↔
      iat + tokenExpSecs.toNat < 2 ^ 63 ∧ now + tokenExpSecs.toNat < 2 ^ 63 ∧
        snapshotRetentionSecs.toNat ≤ now + 2 ^ 63 := by
  constructor
  · intro h
    refine ⟨?_, ?_, ?_⟩
    · have hexp := (h.snapshot "" ⟨"", ⟨""⟩, ⟨1, ""⟩, "", iat⟩ rfl).2
      exact (expOf_eq_iff hiat tokenExpSecs).mp hexp
    · have hwindow := h.token ⟨tokenExpSecs, 0, none⟩ rfl
      exact (expOf_eq_iff hnow tokenExpSecs).mp (Prod.mk.inj hwindow).2
    · by_cases hzero : snapshotRetentionSecs = 0
      · have hnone : (0 : BitVec 64).toNat = 0 := rfl
        rw [hzero, hnone]
        omega
      · have hcutoff := h.cutoff _ (by rw [scheduledCutoff, if_neg hzero, Option.mem_def])
        exact (cutoff_eq_iff hfits snapshotRetentionSecs).mp hcutoff
  · intro h
    obtain ⟨hsnapshot, htoken, hretention⟩ := h
    have hexact : ∀ cutoff ∈ scheduledCutoff snapshotRetentionSecs now,
        cutoff = now - snapshotRetentionSecs.toNat := by
      intro cutoff hcutoff
      rw [scheduledCutoff] at hcutoff
      split at hcutoff
      · cases hcutoff
      · cases hcutoff
        exact (cutoff_eq_iff hfits snapshotRetentionSecs).mpr hretention
    refine ⟨?_, ?_, hexact, ?_⟩
    · intro snapshotId record hrecord
      subst hrecord
      exact ⟨rfl, (expOf_eq_iff hiat tokenExpSecs).mpr hsnapshot⟩
    · intro settings hsettings
      subst hsettings
      rw [defaultWindow, (expOf_eq_iff hnow settings.tokenExpSecs).mpr htoken]
    · intro cutoff hcutoff backend db db' answer hanswers s hs hexp
      have hsweeps : Sweeps db cutoff answer db' := hanswers.spec
      rcases hsweeps.removed s hs with hkept | hexpired
      · exact hkept
      · rw [hexact cutoff hcutoff] at hexpired
        omega

/-- Fifteen minutes and ninety days, the defaults. -/
theorem times_exact_iff_sample : TimesExact 900 7776000 1794964100 1794964100 := by
  apply (times_exact_iff 900 7776000 (by decide) (by decide) (by decide)).mpr
  decide

/-- A lifetime of `2 ^ 63` seconds ends before it begins, and a retention of
`2 ^ 64 - 1` seconds cuts off after the time of the cleanup. -/
theorem forever_is_never :
    ¬ TimesExact 9223372036854775808 18446744073709551615 1794964100 1794964100 ∧
      expOf 1794964100 9223372036854775808 < 1794964100 ∧
      scheduledCutoff 18446744073709551615 1794964100 = some 1794964101 := by
  have hexp : expOf 1794964100 9223372036854775808 < 1794964100 := by decide
  refine ⟨?_, hexp, by decide⟩
  intro h
  have hwindow := h.token ⟨9223372036854775808, 0, none⟩ rfl
  have hend : expOf 1794964100 9223372036854775808 =
      1794964100 + (9223372036854775808 : BitVec 64).toNat := (Prod.mk.inj hwindow).2
  omega

end StatusListServer
