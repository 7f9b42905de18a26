import ComputeArray.Engine.Storage

/-!
# Transfers between host and device

`send` moves the host copy to the device if the host has news, and `loadBlocking` moves the device
buffer to the host if the device has. An asynchronous load is requested, started and finished at
different times; loads requested meanwhile join it. A read-back clears the flag of the device only
if no kernel has written the buffer since the copy.
-/

set_option autoImplicit false

namespace ComputeArray.Action

/-- Records that a kernel has written the device buffer. -/
def markDeviceDirty (buffer : Nat) : Action Unit :=
  changeArray buffer fun array =>
    { array with hostDirty := false, deviceDirty := true, version := array.version + 1 }

def send (buffer : Nat) : Action Unit := do
  let array ← array buffer
  if !array.hostDirty then return
  assertActive
  changeDevice (Device.write buffer array.storage)
  changeArray buffer fun array => { array with hostDirty := false }

/-- Queues a copy of a buffer into a new staging buffer. -/
def copyToStaging (buffer : Nat) : Action ReadBack := do
  assertActive
  let version := (← array buffer).version
  let size := (← get).device.sizeOf buffer
  let staging ← onDevice (Device.createBuffer size Device.stagingUsage)
  changeDevice Device.createEncoder
  let serial ← submitCommands [.copy buffer staging size]
  return ⟨staging, serial, version⟩

def mapStaging (readBack : ReadBack) (blocking : Bool) : Action Unit :=
  changeDevice fun device =>
    device.record (.map readBack.staging (device.sizeOf readBack.staging) blocking)

/-- Stores the mapped bytes and gives the staging buffer back. -/
def finishReadBack (buffer : Nat) (readBack : ReadBack) : Action Unit := do
  let bytes := (← get).device.bytesOf readBack.staging
  changeArray buffer fun array => { array with storage := bytes }
  changeDevice (Device.record (.unmap readBack.staging))
  changeDevice (Device.record (.destroyBuffer readBack.staging))
  modify (Engine.retire readBack.serial)
  changeArray buffer fun array =>
    if array.version = readBack.version then { array with deviceDirty := false } else array

def loadBlocking (buffer : Nat) : Action Unit := do
  if !(← array buffer).deviceDirty then return
  let readBack ← copyToStaging buffer
  mapStaging readBack true
  finishReadBack buffer readBack

def setLoading (buffer : Nat) (loading : Loading) : Action Unit :=
  changeArray buffer fun array => { array with loading }

/-- Asks for a load: one is scheduled if the device has news and none is under way. -/
def requestLoad (buffer : Nat) : Action Unit := do
  let array ← array buffer
  if array.deviceDirty ∧ !array.loading.isUnderWay then setLoading buffer .scheduled

/-- Starts a scheduled load and tells whether there was one. A load that cannot start is no longer
under way. -/
def startLoad (buffer : Nat) : Action Bool := do
  match (← array buffer).loading with
  | .scheduled =>
    setLoading buffer .idle
    let readBack ← copyToStaging buffer
    mapStaging readBack false
    setLoading buffer (.copying readBack)
    return true
  | _ => return false

/-- Finishes a load whose copy is on its way. -/
def finishLoad (buffer : Nat) : Action Unit := do
  match (← array buffer).loading with
  | .copying readBack =>
    setLoading buffer .idle
    finishReadBack buffer readBack
  | _ => return

/-- A load with nothing happening between its request and its end. -/
def load (buffer : Nat) : Action Unit := do
  requestLoad buffer
  let _ ← startLoad buffer
  finishLoad buffer

end ComputeArray.Action
