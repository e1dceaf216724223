import VoiceButton.Library.LinkedList
import VoiceButton.Library.Transition
import Mathlib.Data.Int.Notation

/-!
# The handle table of `lgHdl.c`

The objects that the GPIO library gives to its callers are named by handles, the positions of
a table with 1024 slots. The slots of each type of object are linked in the order in which
they were allocated. A link `-1` is `none` here. An operation whose result is `none` waits for
a mutex that is held, or follows a pointer that leads to no header.

`lgHdlAlloc` holds no mutex between the reservation of a slot and its use, so the two are
steps of their own, and other threads may act between them.
-/

namespace Lg

open LinkedList (Ends Links)
open Function (update)

abbrev lgHdlSlots : ℕ := 1024

abbrev Handle := Fin lgHdlSlots

def lgNoHandle : ℤ := -4
def lgBadHandle : ℤ := -5
def lgNoMemory : ℤ := -18
def lgNoPermissions : ℤ := -93

/-- The `LG_HDL_TYPE_` constants. -/
inductive HdlType
  | none
  | gpio
  | i2c
  | file
  | serial
  | notify
  | script
  | spi
  deriving DecidableEq

/-- The guards in `slgHdlTypeUsage`. -/
def HdlType.magic : HdlType → ℕ
  | .none => 101442315
  | .gpio => 263997524
  | .i2c => 354388063
  | .file => 412249733
  | .serial => 503487673
  | .notify => 641332553
  | .script => 707085925
  | .spi => 806156471

/-- The fields of `lgCtx_t`, the context of a thread, that the table reads. -/
structure LgCtx where
  user : String
  owner : ℤ
  autoSetShare : ℤ
  autoUseShare : ℤ
  deriving DecidableEq

/-- `lgHdlHdr_t`. An object is named by its number in the order of allocation, and of its
destructor only matters whether there is one. -/
structure Header where
  user : String
  obj : ℕ
  type : HdlType
  next : Option Handle
  previous : Option Handle
  magic : ℕ
  destructor : Bool
  owner : ℤ
  share : ℤ
  deriving DecidableEq

/-- What `lgHdl[i].header` holds: `LG_HDL_FREE`, `LG_HDL_RSVD` or a pointer. -/
inductive Slot
  | free
  | rsvd
  | header (h : Header)
  deriving DecidableEq

def Slot.toHeader : Slot → Option Header
  | .header h => some h
  | _ => none

/-- `lgHdl` and `slgHdlTypeUsage`, with the objects allocated so far, those freed and those
passed to their destructor. -/
structure HdlTable where
  slot : Handle → Slot
  locked : Handle → Bool
  usage : HdlType → Ends Handle
  objs : ℕ
  freed : List ℕ
  destructed : List ℕ

/-- The table after `xInit`. -/
def HdlTable.init : HdlTable where
  slot _ := .free
  locked _ := false
  usage _ := ⟨none, none⟩
  objs := 0
  freed := []
  destructed := []

/-- The check `(handle < 0) || (handle >= LG_HDL_SLOTS)`. -/
def Handle.ofInt (handle : ℤ) : Option Handle :=
  if h : 0 ≤ handle ∧ handle < lgHdlSlots then some ⟨handle.toNat, by omega⟩ else none

namespace HdlTable

def header (t : HdlTable) (i : Handle) : Option Header := (t.slot i).toHeader

def setSlot (t : HdlTable) (i : Handle) (s : Slot) : HdlTable := { t with slot := update t.slot i s }

/-- A write through the pointer `lgHdl[i].header`. -/
def setHeader (t : HdlTable) (i : Handle) (f : Header → Header) : Option HdlTable :=
  (t.header i).map (fun h => t.setSlot i (.header (f h)))

def setUsage (t : HdlTable) (type : HdlType) (e : Ends Handle) : HdlTable :=
  { t with usage := update t.usage type e }

def setLocked (t : HdlTable) (i : Handle) (b : Bool) : HdlTable :=
  { t with locked := update t.locked i b }

/-- Allocate an object, whose number is `t.objs`. -/
def newObj (t : HdlTable) : HdlTable := { t with objs := t.objs + 1 }

/-- Free an object, after its destructor if it has one. -/
def freeObj (t : HdlTable) (obj : ℕ) (destructor : Bool) : HdlTable :=
  { t with
    freed := t.freed ++ [obj]
    destructed := if destructor then t.destructed ++ [obj] else t.destructed }

end HdlTable

/-- Return the first available handle and reserve it. -/
def xHdlGet (t : HdlTable) : Option (Handle × HdlTable) :=
  ((List.finRange lgHdlSlots).find? (fun i => t.slot i = .free)).map (fun i => (i, t.setSlot i .rsvd))

/-- Add `handle` to the end of the chain for `type`, but for its own header. -/
def chainHandle (t : HdlTable) (handle : Handle) (type : HdlType) : Option HdlTable :=
  match (t.usage type).last with
  | some last => do
    let t ← t.setHeader last (fun h => { h with next := some handle })
    some (t.setUsage type { t.usage type with last := some handle })
  | none => some (t.setUsage type ⟨some handle, some handle⟩)

/-- `lgHdlAlloc` after `xHdlGet` has reserved `handle`. `objOk` and `hdrOk` say whether the two
calls of `calloc` succeed. -/
def allocReserved (t : HdlTable) (handle : Handle) (ctx : LgCtx) (type : HdlType)
    (destructor objOk hdrOk : Bool) : Option (ℤ × HdlTable) :=
  if objOk = false then some (lgNoMemory, t.setSlot handle .free)
  else if hdrOk = false then
    some (lgNoMemory, (t.newObj.freeObj t.objs false).setSlot handle .free)
  else do
    let t' ← chainHandle t.newObj handle type
    some (handle.val, t'.setSlot handle (.header
      { user := ctx.user
        obj := t.objs
        type := type
        next := none
        previous := (t.usage type).last
        magic := type.magic
        destructor := destructor
        owner := ctx.owner
        share := ctx.autoSetShare }))

/-- `ctx` is what `lgCtxGet` returns. -/
def lgHdlAlloc (t : HdlTable) (ctx : Option LgCtx) (type : HdlType) (destructor objOk hdrOk : Bool) :
    Option (ℤ × HdlTable) :=
  match ctx with
  | none => some (lgNoMemory, t)
  | some ctx =>
    match xHdlGet t with
    | none => some (lgNoHandle, t)
    | some (handle, t) => allocReserved t handle ctx type destructor objOk hdrOk

/-- The checks that the operations on a handle of a given type share. -/
def lookup (t : HdlTable) (i : Handle) (type : HdlType) : Except ℤ Header :=
  match t.slot i with
  | .header h => if h.type ≠ type ∨ h.magic ≠ type.magic then .error lgBadHandle else .ok h
  | _ => .error lgBadHandle

def lgHdlGetObj (t : HdlTable) (handle : ℤ) (type : HdlType) : Except ℤ ℕ :=
  match Handle.ofInt handle with
  | none => .error lgBadHandle
  | some i => (lookup t i type).map Header.obj

/-- Whether `lgHdlGetLockedObj` lets a thread use an object. -/
def Header.admits (h : Header) (ctx : LgCtx) : Bool :=
  !(h.owner != ctx.owner &&
    (h.share == 0 || h.share != ctx.autoUseShare || h.user != ctx.user))

def lgHdlGetLockedObj (t : HdlTable) (ctx : LgCtx) (handle : ℤ) (type : HdlType) :
    Option (Except ℤ ℕ × HdlTable) :=
  match Handle.ofInt handle with
  | none => some (.error lgBadHandle, t)
  | some i =>
    if t.locked i then none
    else
      match lookup t i type with
      | .error status => some (.error status, t)
      | .ok h =>
        if h.admits ctx then some (.ok h.obj, t.setLocked i true)
        else some (.error lgNoPermissions, t)

def lgHdlGetLockedObjTrusted (t : HdlTable) (handle : ℤ) (type : HdlType) :
    Option (Except ℤ ℕ × HdlTable) :=
  match Handle.ofInt handle with
  | none => none
  | some i =>
    if t.locked i then none
    else
      match lookup t i type with
      | .error status => some (.error status, t)
      | .ok h => some (.ok h.obj, t.setLocked i true)

def lgHdlLock (t : HdlTable) (handle : ℤ) : Option (ℤ × HdlTable) :=
  match Handle.ofInt handle with
  | none => some (lgBadHandle, t)
  | some i => if t.locked i then none else some (0, t.setLocked i true)

def lgHdlUnlock (t : HdlTable) (handle : ℤ) : ℤ × HdlTable :=
  match Handle.ofInt handle with
  | none => (lgBadHandle, t)
  | some i => (0, t.setLocked i false)

def lgHdlSetShare (t : HdlTable) (ctx : LgCtx) (handle share : ℤ) : Option (ℤ × HdlTable) :=
  match Handle.ofInt handle with
  | none => some (lgBadHandle, t)
  | some i =>
    if t.locked i then none
    else
      match t.slot i with
      | .header h =>
        if h.owner ≠ ctx.owner then some (lgNoPermissions, t)
        else some (0, t.setSlot i (.header { h with share := share }))
      | _ => some (lgBadHandle, t)

/-- The handles of a type, of which the first `size` are stored and all are counted. The
loop is given `fuel` passes. -/
def lgHdlGetHandlesForType (t : HdlTable) (type : HdlType) (size fuel : ℕ) :
    Option (ℕ × List Handle) :=
  (LinkedList.walk (fun i => (t.header i).map Header.next) fuel (t.usage type).first).map
    (fun hdls => (hdls.length, hdls.take size))

/-- Let the handle before that of `h`, or the type, pass on to the one after it. -/
def unlinkPrevious (t : HdlTable) (h : Header) : Option HdlTable :=
  match h.previous with
  | some p => t.setHeader p (fun q => { q with next := h.next }) -- not first
  | none => some (t.setUsage h.type { t.usage h.type with first := h.next }) -- first

def unlinkNext (t : HdlTable) (h : Header) : Option HdlTable :=
  match h.next with
  | some n => t.setHeader n (fun q => { q with previous := h.previous }) -- not last
  | none => some (t.setUsage h.type { t.usage h.type with last := h.previous })

/-- The body of `lgHdlFree` for a header that has passed the checks. -/
def freeHeader (t : HdlTable) (i : Handle) (h : Header) : Option HdlTable := do
  let t ← unlinkPrevious t h
  let t ← unlinkNext t h
  some ((t.setSlot i .free).freeObj h.obj h.destructor)

def lgHdlFree (t : HdlTable) (handle : ℤ) (type : HdlType) : Option (ℤ × HdlTable) :=
  match Handle.ofInt handle with
  | none => some (lgBadHandle, t)
  | some i =>
    match lookup t i type with
    | .error status => some (status, t)
    | .ok h => (freeHeader t i h).map (fun t => (0, t))

/-- The body of the loop of `lgHdlPurgeByOwner`. -/
def purgeSlot (owner : ℤ) (t : HdlTable) (i : Handle) : Option HdlTable :=
  match t.slot i with
  | .header h =>
    if h.owner = owner ∧ h.share = 0 then (lgHdlFree t i.val h.type).map Prod.snd else some t
  | _ => some t

/-- Purge all handles with a given owner. -/
def lgHdlPurgeByOwner (t : HdlTable) (owner : ℤ) : Option HdlTable :=
  (List.finRange lgHdlSlots).foldlM (purgeSlot owner) t

/-- The steps of the threads that use the table. -/
inductive HdlAct
  | reserve
  | alloc (handle : Handle) (ctx : LgCtx) (type : HdlType) (destructor objOk hdrOk : Bool)
  | getLockedObj (ctx : LgCtx) (handle : ℤ) (type : HdlType)
  | getLockedObjTrusted (handle : ℤ) (type : HdlType)
  | lock (handle : ℤ)
  | unlock (handle : ℤ)
  | setShare (ctx : LgCtx) (handle share : ℤ)
  | free (handle : ℤ) (type : HdlType)
  | purge (owner : ℤ) (i : Handle)

def HdlTable.step (t : HdlTable) : HdlAct → Option HdlTable
  | .reserve => some ((xHdlGet t).elim t Prod.snd)
  | .alloc handle ctx type destructor objOk hdrOk =>
    if t.slot handle = .rsvd then
      (allocReserved t handle ctx type destructor objOk hdrOk).map Prod.snd
    else none
  | .getLockedObj ctx handle type => (lgHdlGetLockedObj t ctx handle type).map Prod.snd
  | .getLockedObjTrusted handle type => (lgHdlGetLockedObjTrusted t handle type).map Prod.snd
  | .lock handle => (lgHdlLock t handle).map Prod.snd
  | .unlock handle => some (lgHdlUnlock t handle).2
  | .setShare ctx handle share => (lgHdlSetShare t ctx handle share).map Prod.snd
  | .free handle type => (lgHdlFree t handle type).map Prod.snd
  | .purge owner i => purgeSlot owner t i

/-- The table after the steps `as` of all threads, from its initialisation. -/
def HdlTable.run (as : List HdlAct) : Option HdlTable := Transition.exec HdlTable.step .init as

end Lg
