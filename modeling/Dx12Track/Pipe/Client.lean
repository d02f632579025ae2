import Dx12Track.Lib.Run
import Dx12Track.Pipe.Message
import Mathlib.Logic.Function.Basic

/-!
# The pipe client

`src/dll/PipeClient.cpp`, called by any number of threads.  `Send` looks at the
handle, then takes the lock and writes the header and the payload.  The look is
outside the lock, so another thread may close the pipe in between.

A `WriteFile` may fail or be short; whatever it has put into the pipe by then
stays there.

* `SendCall` — the arguments of a `Send`, with the message they make.
* `Write` — what a `WriteFile` does.
* `PipeClient` — the handle, the bytes in the pipe, and the calls before the lock.
* `sendLocked` — the locked section of `Send`.
* `written_isPrefix`, `written_eq` — the bytes in the pipe are those of the sent
  records, in the order of the lock, up to the first failure.
-/

namespace Dx12Track

/-- A call of `Send`, and the time it reads from the clock.  Every caller sends a
structure, whose size is far below 4 GiB. -/
structure SendCall where
  kind : UInt8
  payload : List UInt8
  tsNs : UInt64
  fits : payload.length < 2 ^ 32

/-- The header that `Send` writes. -/
def SendCall.header (s : SendCall) : EventHeader where
  magic := kProtocolMagic
  payloadBytes := UInt32.ofNat s.payload.length
  tsNs := s.tsNs
  kind := s.kind

/-- The record of a call. -/
def SendCall.message (s : SendCall) : Message :=
  ⟨(s.header, s.payload), rfl, by
    simp only [header, UInt32.toNat_ofNat']
    exact Nat.mod_eq_of_lt s.fits⟩

/-- What a `WriteFile` on the open pipe does: it returns `ok`, and writes `count` bytes
if its buffer has as many. -/
structure Write where
  ok : Bool
  count : ℕ

/-- The call succeeded and `written` is the size of the buffer. -/
def Write.Done (w : Write) (buf : List UInt8) : Prop := w.ok = true ∧ buf.length ≤ w.count

instance (w : Write) (buf : List UInt8) : Decidable (w.Done buf) :=
  inferInstanceAs (Decidable (_ ∧ _))

/-- `class PipeClient` with the pipe behind it, and the threads that call it. -/
structure PipeClient (T : Type*) where
  /-- `pipe_ != INVALID_HANDLE_VALUE`. -/
  isOpen : Bool := true
  /-- The bytes that have gone into the pipe. -/
  written : List UInt8 := []
  /-- The `Send` a thread is in, past the look at the handle and before the lock. -/
  waiting : T → Option SendCall := fun _ => none
  /-- The records of the calls that have taken the lock, in that order. -/
  sent : List Message := []
  /-- Some `WriteFile` has failed or was short. -/
  failed : Bool := false

namespace PipeClient

variable {T : Type*}

/-- `CloseHandle(pipe_); pipe_ = INVALID_HANDLE_VALUE`, after a bad write. -/
def fail (c : PipeClient T) : PipeClient T := { c with isOpen := false, failed := true }

/-- `WriteFile` on the pipe. -/
def put (c : PipeClient T) (buf : List UInt8) (w : Write) : PipeClient T :=
  { c with written := c.written ++ buf.take w.count }

/-- The locked section of `Send`, with what its two `WriteFile` do. -/
def sendLocked (c : PipeClient T) (s : SendCall) (w₁ w₂ : Write) : PipeClient T :=
  let c := { c with sent := c.sent ++ [s.message] }
  -- a thread that lost the pipe after its look writes to the invalid handle
  if c.isOpen = false then c.fail
  else
    let c := c.put s.header.bytes w₁
    if ¬w₁.Done s.header.bytes then c.fail
    else if s.payload = [] then c
    else
      let c := c.put s.payload w₂
      if ¬w₂.Done s.payload then c.fail else c

/-- `PipeClient::Close`. -/
def close (c : PipeClient T) : PipeClient T := { c with isOpen := false }

/-- A step of one of the threads: it enters `Send`, goes through the locked section of
the `Send` it is in, or calls `Close`. -/
inductive Act (T : Type*)
  | enter (t : T) (s : SendCall)
  | locked (t : T) (w₁ w₂ : Write)
  | close

variable [DecidableEq T]

/-- One step; a thread that is not at such a step does nothing. -/
def step (c : PipeClient T) : Act T → PipeClient T
  | .enter t s =>
    if c.isOpen = true ∧ c.waiting t = none then
      { c with waiting := Function.update c.waiting t (some s) }
    else c
  | .locked t w₁ w₂ =>
    match c.waiting t with
    | none => c
    | some s => ({ c with waiting := Function.update c.waiting t none }).sendLocked s w₁ w₂
  | .close => c.close

/-- The client after some steps, from the moment `Connect` has returned. -/
def run (xs : List (Act T)) : PipeClient T := Machine.run step {} xs

/-! ### The bytes in the pipe -/

/-- While the pipe is open it holds all that was sent; later it holds a part of it. -/
structure Inv (c : PipeClient T) : Prop where
  cut : c.written <+: Message.wire.encAll c.sent
  whole : c.failed = false → c.written = Message.wire.encAll c.sent
  good : c.isOpen = true → c.failed = false

omit [DecidableEq T] in
theorem enc_message (s : SendCall) : Message.wire.enc s.message = s.header.bytes ++ s.payload := rfl

omit [DecidableEq T] in
theorem inv_sendLocked {c : PipeClient T} (hc : Inv c) (s : SendCall) (w₁ w₂ : Write) :
    Inv (c.sendLocked s w₁ w₂) := by
  have hall : Message.wire.encAll (c.sent ++ [s.message])
      = Message.wire.encAll c.sent ++ (s.header.bytes ++ s.payload) := by
    rw [Framing.encAll_concat, enc_message]
  unfold sendLocked
  by_cases hopen : c.isOpen = false
  · rw [if_pos hopen]
    -- the pipe is gone: nothing is written, and what was is still a prefix
    refine ⟨?_, fun h => by simp [fail] at h, fun h => by simp [fail] at h⟩
    exact hc.cut.trans (Framing.encAll_isPrefix _ (List.prefix_append _ _))
  · have hgood := hc.good (by simpa using hopen)
    have hw := hc.whole hgood
    rw [if_neg hopen]
    by_cases hw₁ : w₁.Done s.header.bytes
    · -- the header is in the pipe
      have htake : s.header.bytes.take w₁.count = s.header.bytes := List.take_of_length_le hw₁.2
      rw [if_neg (not_not_intro hw₁)]
      by_cases hp : s.payload = []
      · rw [if_pos hp]
        refine ⟨?_, fun _ => ?_, fun _ => hgood⟩
        · simp only [put, hall, htake, hp, hw, List.append_nil]
          exact List.prefix_rfl
        · simp only [put, hall, htake, hp, hw, List.append_nil]
      · rw [if_neg hp]
        by_cases hw₂ : w₂.Done s.payload
        · have htake₂ : s.payload.take w₂.count = s.payload := List.take_of_length_le hw₂.2
          rw [if_neg (not_not_intro hw₂)]
          refine ⟨?_, fun _ => ?_, fun _ => hgood⟩
          · simp only [put, hall, htake, htake₂, hw, List.append_assoc]
            exact List.prefix_rfl
          · simp only [put, hall, htake, htake₂, hw, List.append_assoc]
        · rw [if_pos hw₂]
          refine ⟨?_, fun h => by simp [fail] at h, fun h => by simp [fail] at h⟩
          -- a part of the payload, behind a whole header
          simp only [fail, put, hall, htake, hw, List.append_assoc]
          rw [List.prefix_append_right_inj, List.prefix_append_right_inj]
          exact List.take_prefix _ _
    · rw [if_pos hw₁]
      refine ⟨?_, fun h => by simp [fail] at h, fun h => by simp [fail] at h⟩
      -- a part of the header
      simp only [fail, put, hall, hw]
      rw [List.prefix_append_right_inj]
      exact (List.take_prefix _ _).trans (List.prefix_append _ _)

theorem inv_step {c : PipeClient T} (hc : Inv c) (x : Act T) : Inv (c.step x) := by
  cases x with
  | enter t s =>
    simp only [step]
    split
    · exact ⟨hc.cut, hc.whole, hc.good⟩
    · exact hc
  | locked t w₁ w₂ =>
    simp only [step]
    cases hs : c.waiting t with
    | none => exact hc
    | some s =>
      have hc' : Inv { c with waiting := Function.update c.waiting t none } :=
        ⟨hc.cut, hc.whole, hc.good⟩
      exact inv_sendLocked hc' s w₁ w₂
  | close => exact ⟨hc.cut, hc.whole, fun h => by simp [step, close] at h⟩

theorem inv_run (xs : List (Act T)) : Inv (run xs) := by
  refine Machine.run_induction step {} (fun _ => True) (fun _ => Inv) ?_ ?_ ?_ xs trivial
  · exact fun _ _ _ => trivial
  · exact ⟨List.nil_prefix, fun _ => rfl, fun _ => rfl⟩
  · exact fun _ x _ hi => inv_step hi x

/-- **The stream.**  However the threads run and whatever writes fail, the pipe holds a
prefix of the records in the order of the lock. -/
theorem written_isPrefix (xs : List (Act T)) :
    (run xs).written <+: Message.wire.encAll (run xs).sent := (inv_run xs).cut

theorem written_eq {xs : List (Act T)} (h : (run xs).failed = false) :
    (run xs).written = Message.wire.encAll (run xs).sent := (inv_run xs).whole h

end PipeClient

end Dx12Track
