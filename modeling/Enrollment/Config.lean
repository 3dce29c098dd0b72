import Enrollment.Error
import Enrollment.Text.Blank
namespace Enrollment

/-!
# Configurations

The settings of one device's attempts.  A valid configuration names its scope
and its endpoint, and each of its durations is longer than nothing and no longer
than a year.
-/

structure Config where
  globalEndpoint : String
  idScope : String
  protocol : Protocol
  /-- The longest wait for one call. -/
  operationTimeout : Duration
  pollInterval : Duration
  /-- The time a whole attempt may take. -/
  attemptBudget : Duration
  tokenTtl : Duration
deriving DecidableEq

namespace Config

def defaultEndpoint : String := "global.azure-devices-provisioning.net"

def defaultDuration : TimeSetting → Duration
  | .operationTimeout => .ofSecs 90
  | .pollInterval => .ofSecs 5
  | .attemptBudget => .ofSecs 600
  | .tokenTtl => .ofSecs 3600

/-- A scope and a protocol, with the default for everything else. -/
def ofScope (idScope : String) (protocol : Protocol) : Config where
  globalEndpoint := defaultEndpoint
  idScope := idScope
  protocol := protocol
  operationTimeout := defaultDuration .operationTimeout
  pollInterval := defaultDuration .pollInterval
  attemptBudget := defaultDuration .attemptBudget
  tokenTtl := defaultDuration .tokenTtl

def duration (c : Config) : TimeSetting → Duration
  | .operationTimeout => c.operationTimeout
  | .pollInterval => c.pollInterval
  | .attemptBudget => c.attemptBudget
  | .tokenTtl => c.tokenTtl

def durations : List TimeSetting :=
  [.operationTimeout, .pollInterval, .attemptBudget, .tokenTtl]

def durationFault? (c : Config) (setting : TimeSetting) : Option ClientFault :=
  if c.duration setting = .zero then some (.zeroDuration setting)
  else if TimeSetting.limit < c.duration setting then
    some (.longDuration setting (c.duration setting))
  else none

def fault? (c : Config) : Option ClientFault :=
  if Text.isAllBlank c.idScope then some .noIdScope
  else if c.globalEndpoint.isEmpty then some .noEndpoint
  else durations.findSome? c.durationFault?

def validate (c : Config) : Except Error Unit :=
  match c.fault? with
  | some fault => .error (.client fault)
  | none => .ok ()

structure Valid (c : Config) : Prop where
  scope : Text.isAllBlank c.idScope = false
  endpoint : c.globalEndpoint ≠ ""
  positive : ∀ setting, .zero < c.duration setting
  bounded : ∀ setting, c.duration setting ≤ TimeSetting.limit

theorem durationFault?_eq_none_iff {c : Config} {setting : TimeSetting} :
    c.durationFault? setting = none ↔
      .zero < c.duration setting ∧ c.duration setting ≤ TimeSetting.limit := by
  generalize hd : c.duration setting = d
  obtain ⟨n⟩ := d
  simp only [durationFault?, hd, Duration.zero, Duration.lt_def, Duration.le_def,
    Duration.mk.injEq]
  split
  · simp; omega
  · split <;> simp <;> omega

theorem mem_durations (setting : TimeSetting) : setting ∈ durations := by
  cases setting <;> decide

theorem validate_eq_ok_iff {c : Config} : c.validate = .ok () ↔ c.Valid := by
  have hfault : c.validate = .ok () ↔ c.fault? = none := by
    unfold validate
    cases c.fault? <;> simp
  rw [hfault]
  constructor
  · intro h
    unfold fault? at h
    split at h
    · simp at h
    · rename_i hscope
      split at h
      · simp at h
      · rename_i hendpoint
        have hall := List.findSome?_eq_none_iff.mp h
        refine ⟨by simpa using hscope, by simpa using hendpoint, ?_, ?_⟩
        · exact fun s ↦ (durationFault?_eq_none_iff.mp (hall s (mem_durations s))).1
        · exact fun s ↦ (durationFault?_eq_none_iff.mp (hall s (mem_durations s))).2
  · intro h
    have hall : durations.findSome? c.durationFault? = none :=
      List.findSome?_eq_none_iff.mpr fun s _ ↦
        durationFault?_eq_none_iff.mpr ⟨h.positive s, h.bounded s⟩
    simp [fault?, h.scope, h.endpoint, hall]

/-- The defaults are valid; only the scope has to be given. -/
theorem valid_ofScope {idScope : String} (h : Text.isAllBlank idScope = false)
    (protocol : Protocol) : (ofScope idScope protocol).Valid where
  scope := h
  endpoint := by simp [ofScope, defaultEndpoint]
  positive := by
    intro setting
    have hdefault : .zero < defaultDuration setting := by
      cases setting <;> decide
    cases setting <;> exact hdefault
  bounded := by
    intro setting
    have hdefault : defaultDuration setting ≤ TimeSetting.limit := by
      cases setting <;> decide
    cases setting <;> exact hdefault

end Config
end Enrollment
