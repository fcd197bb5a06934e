import AccessoryController.Library.Crash
import Mathlib.Data.Int.Notation
import Mathlib.Data.Nat.Notation
import Mathlib.Logic.Function.Basic

/-!
# The configuration override in NVS

The override is stored in one of two slots, and a marker names the slot that is active. The
storage is a map of keys: each call on it happens, or fails with an error of its own, or is never
made because power was lost before.

## Main definitions

* `NvsMap`, `Answer`: the storage, and what becomes of a call
* `getU8`, `setU8`, `getBlob`, `setBlob`, `eraseKey`, `commit`: the storage calls
* `readOverride`, `writeOverride`, `clearOverride`: the adapter
-/

namespace AccessoryController.ControllerConfig

open Crash

abbrev Bytes := List UInt8

def kMaxControllerConfigJsonBytes : ℕ := 16 * 1024
def kMaxStoredControllerConfigJsonBytes : ℕ := 4 * 1024

abbrev NvsResult := ℤ

def kNvsOk : NvsResult := 0
def kNvsNotFound : NvsResult := 0x1102
def kNvsTypeMismatch : NvsResult := 0x1103
def kNvsInvalidLength : NvsResult := 0x110C

inductive NvsValue
  | u8 (value : UInt8)
  | blob (value : Bytes)
  deriving DecidableEq, Repr

/-- The keys that hold a value. -/
abbrev NvsMap := String → Option NvsValue

/-- The error of a call that failed. That a key is missing is an answer, not such an error. -/
structure NvsError where
  code : NvsResult
  failed : code ≠ kNvsOk
  found : code ≠ kNvsNotFound

/-- What becomes of a call. One that reports an error may still have taken effect. -/
inductive Answer
  | happens
  | fails (error : NvsError) (takesEffect : Bool)

abbrev NvsProg := Prog NvsMap Answer

/-! ### The storage calls -/

/-- A call that changes the map. -/
def update (f : NvsMap → NvsMap) : NvsProg NvsResult := operate fun answer m =>
  match answer with
  | .happens => (kNvsOk, f m)
  | .fails error takesEffect => (error.code, if takesEffect then f m else m)

/-- A call that reads the map. -/
def query {A : Type} (f : NvsMap → NvsResult × A) (nothing : A) : NvsProg (NvsResult × A) :=
  operate fun answer m =>
    match answer with
    | .happens => (f m, m)
    | .fails error _ => ((error.code, nothing), m)

def setU8 (key : String) (value : UInt8) : NvsProg NvsResult :=
  update fun m => Function.update m key (some (.u8 value))

def setBlob (key : String) (value : Bytes) : NvsProg NvsResult :=
  update fun m => Function.update m key (some (.blob value))

def commit : NvsProg NvsResult := update id

/-- Erases a key; a missing one is reported. -/
def eraseKey (key : String) : NvsProg NvsResult := operate fun answer m =>
  match answer with
  | .happens => (if m key = none then kNvsNotFound else kNvsOk, Function.update m key none)
  | .fails error takesEffect =>
    (error.code, if takesEffect then Function.update m key none else m)

def getU8 (key : String) : NvsProg (NvsResult × UInt8) :=
  query (fun m =>
    match m key with
    | none => (kNvsNotFound, 0)
    | some (.u8 value) => (kNvsOk, value)
    | some (.blob _) => (kNvsTypeMismatch, 0)) 0

/-- The length of a blob, as `get_blob` reports it without a buffer. -/
def getBlobLength (key : String) : NvsProg (NvsResult × ℕ) :=
  query (fun m =>
    match m key with
    | none => (kNvsNotFound, 0)
    | some (.u8 _) => (kNvsTypeMismatch, 0)
    | some (.blob value) => (kNvsOk, value.length)) 0

def getBlob (key : String) (capacity : ℕ) : NvsProg (NvsResult × Bytes) :=
  query (fun m =>
    match m key with
    | none => (kNvsNotFound, [])
    | some (.u8 _) => (kNvsTypeMismatch, [])
    | some (.blob value) =>
      if capacity < value.length then (kNvsInvalidLength, []) else (kNvsOk, value)) []

/-! ### The adapter -/

def kActiveKey : String := "active_slot"

def kSlotKeys : List String := ["slot_a", "slot_b"]

def kSlotCount : ℕ := 2

def slotKey (slot : UInt8) : String := kSlotKeys.getD slot.toNat ""

inductive ReadStatus
  | missing
  | present
  | failed
  deriving DecidableEq, Repr

/-- What a read found: its status, the text and the message of a failure. -/
structure ReadResult where
  status : ReadStatus := .missing
  value : Bytes := []
  message : String := ""
  deriving DecidableEq, Repr

structure WriteResult where
  ok : Bool
  message : String := ""
  deriving DecidableEq, Repr

section

variable (errorName : NvsResult → String)

def errorMessage (operation : String) (result : NvsResult) : String :=
  operation ++ " failed: " ++ errorName result

def readBlob (key : String) : NvsProg ReadResult := do
  let size ← getBlobLength key
  if size.1 = kNvsNotFound then pure {}
  else if size.1 ≠ kNvsOk then
    pure { status := .failed, message := errorMessage errorName "read configuration size" size.1 }
  else if size.2 = 0 ∨ kMaxControllerConfigJsonBytes < size.2 then
    pure { status := .failed, message := "stored configuration JSON exceeds storage bounds" }
  else do
    let blob ← getBlob key size.2
    if blob.1 ≠ kNvsOk then
      pure { status := .failed, message := errorMessage errorName "read configuration" blob.1 }
    else pure { status := .present, value := blob.2 }

/-- The active slot, or why it is not known. -/
def readActiveSlot : NvsProg (Option UInt8 × Option String) := do
  let active ← getU8 kActiveKey
  if active.1 = kNvsNotFound then pure (none, none)
  else if active.1 ≠ kNvsOk then
    pure (none, some (errorMessage errorName "read active slot" active.1))
  else if kSlotCount ≤ active.2.toNat then
    pure (none, some "active slot marker is out of range")
  else pure (some active.2, none)

def readOverride : NvsProg ReadResult := do
  let active ← getU8 kActiveKey
  if active.1 = kNvsNotFound then pure {}
  else if active.1 ≠ kNvsOk then
    pure { status := .failed, message := errorMessage errorName "read active slot" active.1 }
  else if kSlotCount ≤ active.2.toNat then
    pure { status := .failed, message := "active slot marker is out of range" }
  else do
    let blob ← readBlob errorName (slotKey active.2)
    match blob.status with
    | .missing => pure { status := .failed, message := "active slot has no configuration JSON" }
    | .failed => pure { status := .failed, message := blob.message }
    | .present => pure { status := .present, value := blob.value }

/-- Puts the marker back; that there is none to erase is no failure. -/
def putBackMarker : Option UInt8 → NvsProg NvsResult
  | some slot => setU8 kActiveKey slot
  | none => do
    let result ← eraseKey kActiveKey
    pure (if result = kNvsNotFound then kNvsOk else result)

/-- Puts the marker back after a failure, and reports the failure. -/
def restoreMarker (previousSlot : Option UInt8) (message : String) : NvsProg WriteResult := do
  let result ← putBackMarker previousSlot
  if result ≠ kNvsOk then
    pure ⟨false, message ++ "; restore failed: " ++ errorMessage errorName "active slot" result⟩
  else do
    let result ← commit
    if result ≠ kNvsOk then
      pure ⟨false,
        message ++ "; restore commit failed: " ++ errorMessage errorName "active slot" result⟩
    else pure ⟨false, message⟩

/-- The slot that a write goes to: the one that is not active. -/
def targetSlot (activeSlot : Option UInt8) : UInt8 :=
  match activeSlot with
  | some slot => if slot = 0 then 1 else 0
  | none => 0

/-- Whether a slot reads back as it was written. -/
def ReadResult.verifies (written : ReadResult) (canonicalJson : Bytes) : Bool :=
  written.status = .present ∧ written.value = canonicalJson

/-- Moves the marker to the written slot, and back if that does not verify. -/
def activateSlot (activeSlot : Option UInt8) (canonicalJson : Bytes) : NvsProg WriteResult := do
  let target := targetSlot activeSlot
  let result ← setU8 kActiveKey target
  if result ≠ kNvsOk then pure ⟨false, errorMessage errorName "write active slot" result⟩
  else do
    let result ← commit
    if result ≠ kNvsOk then
      restoreMarker errorName activeSlot (errorMessage errorName "commit active slot" result)
    else do
      let verified ← getU8 kActiveKey
      if verified.1 ≠ kNvsOk ∨ verified.2 ≠ target then
        restoreMarker errorName activeSlot
          (if verified.1 = kNvsOk then "active slot read-back verification failed"
            else errorMessage errorName "read active slot" verified.1)
      else do
        let written ← readBlob errorName (slotKey verified.2)
        if ¬ written.verifies canonicalJson then
          restoreMarker errorName activeSlot
            (if written.status = .failed then written.message
              else "active configuration read-back verification failed")
        else pure ⟨true, ""⟩

/-- Writes the text to the slot that is not active, and makes that slot active if it verifies. -/
def replaceSlot (activeSlot : Option UInt8) (canonicalJson : Bytes) : NvsProg WriteResult := do
  let targetKey := slotKey (targetSlot activeSlot)
  let result ← setBlob targetKey canonicalJson
  if result ≠ kNvsOk then pure ⟨false, errorMessage errorName "write configuration slot" result⟩
  else do
    let result ← commit
    if result ≠ kNvsOk then
      pure ⟨false, errorMessage errorName "commit configuration slot" result⟩
    else do
      let written ← readBlob errorName targetKey
      if ¬ written.verifies canonicalJson then
        pure ⟨false, if written.status = .failed then written.message
          else "configuration slot read-back verification failed"⟩
      else activateSlot errorName activeSlot canonicalJson

def writeOverride (canonicalJson : Bytes) : NvsProg WriteResult :=
  if canonicalJson.length = 0 ∨ kMaxStoredControllerConfigJsonBytes < canonicalJson.length then
    pure ⟨false, "canonical configuration JSON exceeds storage bounds"⟩
  else do
    let active ← readActiveSlot errorName
    match active with
    | (none, some error) => pure ⟨false, error⟩
    | (activeSlot, _) => replaceSlot errorName activeSlot canonicalJson

/-- Reports a failed clear; only a known marker can be put back. -/
def abandonClear (activeSlot : Option UInt8) (message : String) : NvsProg WriteResult :=
  if activeSlot.isSome then restoreMarker errorName activeSlot message else pure ⟨false, message⟩

/-- Erases the marker, whatever it was; only a known one can be put back. -/
def eraseMarker (activeSlot : Option UInt8) : NvsProg WriteResult := do
  let result ← eraseKey kActiveKey
  if result ≠ kNvsOk ∧ result ≠ kNvsNotFound then
    pure ⟨false, errorMessage errorName "clear active slot" result⟩
  else do
    let result ← commit
    if result ≠ kNvsOk then
      abandonClear errorName activeSlot (errorMessage errorName "commit clear" result)
    else do
      let cleared ← getU8 kActiveKey
      if cleared.1 = kNvsNotFound then pure ⟨true, ""⟩
      else
        abandonClear errorName activeSlot
          (if cleared.1 = kNvsOk then "clear read-back verification failed"
            else errorMessage errorName "read cleared active slot" cleared.1)

def clearOverride : NvsProg WriteResult := do
  let active ← readActiveSlot errorName
  match active with
  | (none, none) => pure ⟨true, ""⟩
  | (activeSlot, _) => eraseMarker errorName activeSlot

end

end AccessoryController.ControllerConfig
