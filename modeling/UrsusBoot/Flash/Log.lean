import Mathlib.Algebra.GroupWithZero.Nat
import Mathlib.Data.Int.Notation
import Mathlib.Data.Nat.Notation

/-!
# The operation log

The lines `ursus_logf` writes to the console and to the log of the Web page, one constructor a
format.
-/

namespace UrsusBoot

inductive LogLine
  -- uploads
  | uploadError (reasonClass reason : String) (expected got : ℕ)
  | uploadBegin (kind : String) (generation filename : List UInt8) (declared : ℕ)
  | uploadDiscard (kind : String) (generation filename : List UInt8) (declared received : ℕ)
  | uploadComplete (kind : String) (generation filename : List UInt8) (declared received : ℕ)
  | uploadEof (generation filename : List UInt8)
      (declared received chunkReceived chunkExpected : ℕ)
  -- validation
  | fdtAligned (bytes : ℕ)
  | expertValidation (bytes : ℕ)
  | expertVerdict (reasonClass : String) (fit hashes kernel fdt arch board bootable : Bool)
      (ret : ℤ) (reason : String)
  | firmwareValidation (bytes : ℕ) (layout : String)
  | firmwareVerdict (reasonClass type : String)
      (metadata device fit hashes kernel fdt root arch board : Bool) (ret : ℤ)
  | firmwareOperation (operation reason : String)
  -- requests
  | bootOnceArmed (addr size : ℕ)
  | stockInstallArmed
  | ubiUpdateBegin (keepSettings : Bool)
  | migrationStart
  | settingsReset (layout : String) (ret : ℤ)
  | fipUpdateStart (vanilla : Bool) (layout : String) (file : List UInt8) (bytes : ℕ)
  | rebootRequest (migrationComplete updateComplete fipComplete : Bool)
  | rebootRejected (gate : Bool) (confirm : List UInt8)
  | rebootAccepted
  | rebootResponseQueued
  -- the loop
  | networkInactive
  | rebootGraceExpired
  | rebootForced
  | ubiUpdateFailed (stage : String) (ret : ℤ)
  | ubiUpdateComplete
  | rebootRequired
  | migrationFailed (stage : String) (ret : ℤ)
  | migrationComplete
  | migrationReady
  | fipUpdateFailed (stage : String) (ret : ℤ)
  | fipUpdateComplete
  -- after the loop
  | resetInvoked (attempt : ℕ)
  | resetReturned (attempt : ℕ) (ret : ℤ)
  | resetExhausted

end UrsusBoot
