import Dx12Track.MinHook.Trampoline

/-!
# The hooks

The calls of MinHook (`src/third_party/minhook/src/hook.c`).  They run one after the other
under a lock; before a call writes over code it stops the other threads of the process, and
moves those that stand where it is going to write.

* `HookEntry`, `Engine` — the table of hooks, with the memory and the threads of the process.
* `HookOs` — what the system answers in a call.
* `freeze`, `enableHookLL`, `switchAll` — the parts of the calls.
* `mhInitialize` to `mhApplyQueued`, `Call`, `Engine.step` — the calls.
-/

namespace Dx12Track.MinHook

open Jumps

/-- `MH_STATUS`. -/
inductive Status
  | ok | alreadyInitialized | notInitialized | alreadyCreated | notCreated | enabled | disabled
  | notExecutable | unsupportedFunction | memoryAlloc | memoryProtect
  deriving DecidableEq

/-- `HOOK_ENTRY`. -/
structure HookEntry where
  pTarget : ℕ
  /-- The relay. -/
  pDetour : ℕ
  pTrampoline : ℕ
  backup : List UInt8
  patchAbove : Bool
  isEnabled : Bool := false
  queueEnable : Bool := false
  oldIPs : List ℕ
  newIPs : List ℕ

namespace HookEntry

/-- `pPatchTarget`. -/
def place (h : HookEntry) : ℕ := if h.patchAbove then h.pTarget - jmpRelSize else h.pTarget

/-- `patchSize`. -/
def patchSize (h : HookEntry) : ℕ := if h.patchAbove then jmpRelSize + jmpShortSize else jmpRelSize

/-- `FindOldIP`. -/
def findOldIP (h : HookEntry) (ip : ℕ) : Option ℕ :=
  if h.patchAbove = true ∧ ip = h.pTarget - jmpRelSize then some h.pTarget
  else
    match (h.oldIPs.zip h.newIPs).find? fun p => ip = h.pTrampoline + p.2 with
    | some p => some (h.pTarget + p.1)
    | none => if ip = h.pDetour then some h.pTarget else none

/-- `FindNewIP`. -/
def findNewIP (h : HookEntry) (ip : ℕ) : Option ℕ :=
  ((h.oldIPs.zip h.newIPs).find? fun p => ip = h.pTarget + p.1).map fun p => h.pTrampoline + p.2

end HookEntry

/-- The argument `action` of `Freeze`. -/
inductive Action
  | disable | enable | applyQueued
  deriving DecidableEq

/-- What an action makes of a hook. -/
def Action.wants : Action → HookEntry → Bool
  | .disable, _ => false
  | .enable, _ => true
  | .applyQueued, h => h.queueEnable

/-- What the system answers during a call. -/
structure HookOs (si : SystemInfo) extends Os si where
  heapCreate : Bool
  heapAlloc : Bool
  heapReAlloc : Bool
  enumerateThreads : Bool
  /-- Whether a thread, by its number, can be stopped and moved. -/
  suspendThread : ℕ → Bool
  virtualProtect : ℕ → Bool
  isExecutableAddress : ℕ → Bool
  /-- Code is where applications are. -/
  executable_range : ∀ a, isExecutableAddress a = true →
    si.minimumApplicationAddress ≤ a ∧ a ≤ si.maximumApplicationAddress

/-- The state of the library. -/
structure Engine where
  /-- `g_hHeap` is not null. -/
  initialized : Bool := false
  /-- `g_hooks.pItems` is not null. -/
  allocated : Bool := false
  capacity : ℕ := 0
  /-- `g_hooks`. -/
  hooks : List HookEntry := []
  buffers : Buffers
  /-- Where the other threads of the process stand. -/
  threads : List ℕ := []

/-- `INITIAL_HOOK_CAPACITY`. -/
def initialHookCapacity : ℕ := 32

namespace Engine

def mem (e : Engine) : Memory := e.buffers.mem

def setMem (e : Engine) (m : Memory) : Engine := { e with buffers := { e.buffers with mem := m } }

/-- `FindHookEntry`. -/
def findHookEntry (e : Engine) (pTarget : ℕ) : Option ℕ :=
  e.hooks.findIdx? fun h => h.pTarget = pTarget

end Engine

/-- Where `ProcessThreadIPs` moves a thread. -/
def processThreadIPs (hooks : List HookEntry) (action : Action) (ip : ℕ) : ℕ :=
  hooks.foldl
    (fun ip h =>
      if h.isEnabled = action.wants h then ip
      else if action.wants h then (h.findNewIP ip).getD ip
      else (h.findOldIP ip).getD ip) ip

section

variable {si : SystemInfo} (os : HookOs si)

/-- `AddHookEntry`, as far as it makes room. -/
def addHookEntry (e : Engine) : Bool × Engine :=
  if e.allocated = false then
    if os.heapAlloc then (true, { e with capacity := initialHookCapacity, allocated := true })
    else (false, { e with capacity := initialHookCapacity })
  else if e.capacity ≤ e.hooks.length then
    if os.heapReAlloc then (true, { e with capacity := e.capacity * 2 }) else (false, e)
  else (true, e)

/-- The last entry takes the place of the one at `pos`. -/
def swapRemove (hooks : List HookEntry) (pos : ℕ) : List HookEntry :=
  match hooks.getLast? with
  | none => []
  | some last => (hooks.set pos last).dropLast

/-- `DeleteHookEntry`. -/
def deleteHookEntry (e : Engine) (pos : ℕ) : Engine :=
  let hooks := swapRemove e.hooks pos
  let shrinks := initialHookCapacity ≤ e.capacity / 2 ∧ hooks.length ≤ e.capacity / 2
  { e with
    hooks := hooks
    capacity := if shrinks ∧ os.heapReAlloc = true then e.capacity / 2 else e.capacity }

/-- `Freeze`: the threads that can be stopped are moved; `hooks` are those at `pos`. -/
def freeze (e : Engine) (hooks : List HookEntry) (action : Action) : Option Engine :=
  if os.enumerateThreads then
    some { e with
      threads := e.threads.mapIdx fun i ip =>
        if os.suspendThread i then processThreadIPs hooks action ip else ip }
  else none

/-- What `EnableHookLL` writes over the function. -/
def patched (m : Memory) (h : HookEntry) : Memory :=
  let m := m.write h.place (jmpRel h.place h.pDetour)
  if h.patchAbove then m.write h.pTarget (jmpShort (-(jmpShortSize + jmpRelSize : ℕ))) else m

/-- What `EnableHookLL` does to a hook and the memory. -/
def switch (e : Engine) (pos : ℕ) (h : HookEntry) (enable : Bool) : Engine :=
  { e.setMem (if enable then patched e.mem h else e.mem.write h.place h.backup) with
    hooks := e.hooks.set pos { h with isEnabled := enable, queueEnable := enable } }

/-- `EnableHookLL`. -/
def enableHookLL (e : Engine) (pos : ℕ) (h : HookEntry) (enable : Bool) : Status × Engine :=
  if os.virtualProtect h.place = false then (.memoryProtect, e)
  else (.ok, switch e pos h enable)

/-- The loop over the hooks from `pos` on, `left` of them; the first failure ends it. -/
def switchLoop (action : Action) : ℕ → ℕ → Engine → Status × Engine
  | 0, _, e => (.ok, e)
  | left + 1, pos, e =>
    match e.hooks[pos]? with
    | none => (.ok, e)
    | some h =>
      if h.isEnabled = action.wants h then switchLoop action left (pos + 1) e
      else
        match enableHookLL os e pos h (action.wants h) with
        | (.ok, e) => switchLoop action left (pos + 1) e
        | (status, e) => (status, e)

/-- Every hook that is not as `action` wants it is switched. -/
def switchAll (action : Action) (e : Engine) : Status × Engine :=
  match e.hooks.findIdx? fun h => h.isEnabled ≠ action.wants h with
  | none => (.ok, e)
  | some first =>
    match freeze os e e.hooks action with
    | none => (.memoryAlloc, e)
    | some e => switchLoop os action (e.hooks.length - first) first e

/-- `EnableAllHooksLL`. -/
def enableAllHooksLL (enable : Bool) (e : Engine) : Status × Engine :=
  switchAll os (if enable then .enable else .disable) e

/-- `MH_Initialize`. -/
def mhInitialize (e : Engine) : Status × Engine :=
  if e.initialized then (.alreadyInitialized, e)
  else if os.heapCreate then (.ok, { e with initialized := true })
  else (.memoryAlloc, e)

/-- `MH_Uninitialize`. -/
def mhUninitialize (e : Engine) : Status × Engine :=
  if e.initialized = false then (.notInitialized, e)
  else
    match enableAllHooksLL os false e with
    | (.ok, e) =>
      (.ok, { e with
        initialized := false, allocated := false, capacity := 0, hooks := []
        buffers := uninitializeBuffer e.buffers })
    | (status, e) => (status, e)

/-- The new entry of `MH_CreateHook`, with the bytes that the patch will overwrite. -/
def newEntry (m : Memory) (t : Trampoline) : HookEntry :=
  let h : HookEntry :=
    { pTarget := t.pTarget, pDetour := t.pRelay, pTrampoline := t.pTrampoline, backup := []
      patchAbove := t.patchAbove, oldIPs := t.oldIPs, newIPs := t.newIPs }
  { h with backup := m.read h.place h.patchSize }

/-- `MH_CreateHook`. -/
def mhCreateHook (d : Disassembler) (e : Engine) (pTarget pDetour : ℕ) : Status × Engine :=
  if e.initialized = false then (.notInitialized, e)
  else if os.isExecutableAddress pTarget = false ∨ os.isExecutableAddress pDetour = false then
    (.notExecutable, e)
  else
    match e.findHookEntry pTarget with
    | some _ => (.alreadyCreated, e)
    | none =>
      match allocateBuffer si os.toOs e.buffers pTarget with
      | none => (.memoryAlloc, e)
      | some (pBuffer, buffers) =>
        match createTrampolineFunction d os.isExecutableAddress buffers.mem pTarget pDetour
            pBuffer with
        | (m, none) =>
          (.unsupportedFunction,
            { e with buffers := freeBuffer { buffers with mem := m } pBuffer })
        | (m, some ct) =>
          match addHookEntry os { e with buffers := { buffers with mem := m } } with
          | (false, e) => (.memoryAlloc, { e with buffers := freeBuffer e.buffers pBuffer })
          | (true, e) => (.ok, { e with hooks := e.hooks ++ [newEntry e.mem ct] })

/-- `MH_RemoveHook`. -/
def mhRemoveHook (e : Engine) (pTarget : ℕ) : Status × Engine :=
  if e.initialized = false then (.notInitialized, e)
  else
    match e.findHookEntry pTarget with
    | none => (.notCreated, e)
    | some pos =>
      match e.hooks[pos]? with
      | none => (.notCreated, e)
      | some h =>
        let remove (e : Engine) : Engine :=
          deleteHookEntry os { e with buffers := freeBuffer e.buffers h.pTrampoline } pos
        if h.isEnabled then
          match freeze os e [h] .disable with
          | none => (.memoryAlloc, e)
          | some e =>
            match enableHookLL os e pos h false with
            | (.ok, e) => (.ok, remove e)
            | (status, e) => (status, e)
        else (.ok, remove e)

/-- `EnableHook`; 0 is `MH_ALL_HOOKS`.  Also a hook that is to be disabled is frozen with
`ACTION_ENABLE`. -/
def enableHook (e : Engine) (pTarget : ℕ) (enable : Bool) : Status × Engine :=
  if e.initialized = false then (.notInitialized, e)
  else if pTarget = 0 then enableAllHooksLL os enable e
  else
    match e.findHookEntry pTarget with
    | none => (.notCreated, e)
    | some pos =>
      match e.hooks[pos]? with
      | none => (.notCreated, e)
      | some h =>
        if h.isEnabled = enable then (if enable then .enabled else .disabled, e)
        else
          match freeze os e [h] .enable with
          | none => (.memoryAlloc, e)
          | some e => enableHookLL os e pos h enable

/-- `QueueHook`. -/
def queueHook (e : Engine) (pTarget : ℕ) (queueEnable : Bool) : Status × Engine :=
  if e.initialized = false then (.notInitialized, e)
  else if pTarget = 0 then
    (.ok, { e with hooks := e.hooks.map fun h => { h with queueEnable := queueEnable } })
  else
    match e.findHookEntry pTarget with
    | none => (.notCreated, e)
    | some pos =>
      (.ok, { e with hooks := e.hooks.modify pos fun h => { h with queueEnable := queueEnable } })

/-- `MH_ApplyQueued`. -/
def mhApplyQueued (e : Engine) : Status × Engine :=
  if e.initialized = false then (.notInitialized, e) else switchAll os .applyQueued e

end

/-- A call of the library, or what happens beside it. -/
inductive Call
  | init
  | uninit
  | createHook (pTarget pDetour : ℕ)
  | removeHook (pTarget : ℕ)
  | enableHook (pTarget : ℕ) (enable : Bool)
  | queueHook (pTarget : ℕ) (enable : Bool)
  | applyQueued
  /-- The other threads run on. -/
  | threads (ips : List ℕ)

/-- **A call**, with its status. -/
def Engine.call {si : SystemInfo} (d : Disassembler) (os : HookOs si) (e : Engine) :
    Call → Status × Engine
  | .init => mhInitialize os e
  | .uninit => mhUninitialize os e
  | .createHook pTarget pDetour => mhCreateHook os d e pTarget pDetour
  | .removeHook pTarget => mhRemoveHook os e pTarget
  | .enableHook pTarget enable => MinHook.enableHook os e pTarget enable
  | .queueHook pTarget enable => MinHook.queueHook e pTarget enable
  | .applyQueued => mhApplyQueued os e
  | .threads ips => (.ok, { e with threads := ips })

end Dx12Track.MinHook
