import ValueMesh.Numeral
import ValueMesh.Settings
/-!
# Settings given as text

A firmware image carries its settings as four texts.  A text that is no numeral does not stop the image from being
made; it shows when the settings are asked for, like a number that is out of range.
-/
namespace ValueMesh

structure Parameters where
  accessAddress : Option UInt32
  channel : Option UInt32
  handleCount : Option UInt32
  interval : Option UInt32
  deriving DecidableEq, Repr

namespace Parameters

def ofText (accessAddress channel handleCount interval : String) : Parameters :=
  ⟨Numeral.ofString accessAddress, Numeral.ofString channel, Numeral.ofString handleCount, Numeral.ofString interval⟩

/-- What an image carries for which nothing else was chosen. -/
def image : Parameters := ofText "0x8E89BED6" "38" "32" "100"

/-- The settings, if all four are numbers that fit their fields and are in range. -/
def settings (p : Parameters) : Except Fault Settings :=
  match p.accessAddress, p.channel, p.handleCount, p.interval with
  | some accessAddress, some channel, some handleCount, some interval =>
    if 0x100 ≤ channel.toNat ∨ 0x10000 ≤ handleCount.toNat then .error .invalidParam
    else
      let cfg : Settings := ⟨accessAddress, channel.toUInt8, handleCount.toUInt16, interval.toNat⟩
      cfg.check.map fun _ => cfg
  | _, _, _, _ => .error .invalidParam

theorem inRange_of_settings {p : Parameters} {cfg : Settings} (h : p.settings = .ok cfg) : cfg.InRange := by
  unfold settings at h
  split at h
  · split at h
    · simp at h
    · rename_i c _ _ _ _ _ _ _ _
      simp only [Except.map] at h
      split at h
      · simp at h
      · rename_i hc
        simp only [Except.ok.injEq] at h
        subst h
        exact Settings.check_eq_ok_iff.1 hc
  · simp at h

end Parameters
end ValueMesh
