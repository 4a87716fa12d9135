import MailAggregator.Lib.PyText
import Mathlib.Algebra.Order.Ring.Rat
import Mathlib.Tactic.NormNum

set_option relaxedAutoImplicit false
set_option autoImplicit false

/-!
# Settings

The settings that the modelled jobs read, with their defaults and the bounds that loading them
enforces. A value of `Settings` meets every bound, so a rejected configuration cannot be built.

## Main definitions

* `MailAggregator.Settings`.
* `MailAggregator.Settings.crmPushEnabled`.
-/

namespace MailAggregator

open PyText

/-- A setting lies between its bounds. -/
abbrev Within (lo hi n : ℕ) : Prop := lo ≤ n ∧ n ≤ hi

/-- An accepted configuration. -/
structure Settings where
  retentionDays : ℕ := 30
  initialSyncDays : ℕ := 30
  maxBodyBytes : ℕ := 1048576
  syncMaxConsecutiveFailures : ℕ := 3
  /-- A float: its exact value. -/
  syncMassFailureRatio : ℚ := 1 / 2
  syncMassFailureMin : ℕ := 5
  syncTransientSuppressMinutes : ℕ := 60
  syncOauthLoginFailedTransient : Bool := true
  crmIngestUrl : Text := []
  crmPushSecret : Text := []
  crmPushBatchSize : ℕ := 100
  crmPushRecoveryWindowHours : ℕ := 720
  crmPushRecoveryBatchSize : ℕ := 500
  retentionDays_within : Within 1 3650 retentionDays := by decide
  initialSyncDays_within : Within 1 365 initialSyncDays := by decide
  maxBodyBytes_within : Within 1024 10485760 maxBodyBytes := by decide
  syncMaxConsecutiveFailures_within : Within 1 20 syncMaxConsecutiveFailures := by decide
  syncMassFailureRatio_within : 0 ≤ syncMassFailureRatio ∧ syncMassFailureRatio ≤ 1 := by
    norm_num
  syncMassFailureMin_within : Within 1 10000 syncMassFailureMin := by decide
  syncTransientSuppressMinutes_within : Within 0 10080 syncTransientSuppressMinutes := by decide
  crmPushBatchSize_within : Within 1 100 crmPushBatchSize := by decide
  crmPushRecoveryWindowHours_within : Within 1 8760 crmPushRecoveryWindowHours := by decide
  crmPushRecoveryBatchSize_within : Within 1 10000 crmPushRecoveryBatchSize := by decide

/-- The configuration of an empty environment. -/
def Settings.defaults : Settings := {}

/-- `crm_push_enabled`: the ingest URL and the secret are both set. -/
def Settings.crmPushEnabled (S : Settings) : Prop := S.crmIngestUrl ≠ [] ∧ S.crmPushSecret ≠ []

instance (S : Settings) : Decidable S.crmPushEnabled :=
  inferInstanceAs (Decidable (_ ∧ _))

end MailAggregator
