import Dx12Track.Pipe.Client

/-!
# The pipe server

The reading end of `src/launcher/PipeServer.cpp`.  `ReadFile` gives what has
arrived, in pieces of any size; at the end of the stream it fails.  The loops carry
a bound on their iterations, and say so when it is used up.

* `PipeEnd`, `readFile` — the bytes still to come, and one `ReadFile`.
* `readExact`, `readerLoop` — the loops of the source.
* `readExact_eq`, `readerLoop_eq` — what they compute: the splitting into pieces does
  not matter, and they stop.
* `delivered_isPrefix` — from the calls of `Send` to the calls of `OnEvent`.
-/

namespace Dx12Track

/-- The reading end of the pipe. -/
structure PipeEnd where
  /-- The bytes that will still arrive before the stream ends. -/
  bytes : List UInt8
  /-- How often `ReadFile` has been called. -/
  reads : ℕ := 0

namespace PipeEnd

/-- `ReadFile` for `want` bytes: the number of bytes it has at the `n`th call is
`chunk n`, but at least one.  It gives none at the end of the stream. -/
def readFile (chunk : ℕ → ℕ) (p : PipeEnd) (want : ℕ) : List UInt8 × PipeEnd :=
  let got := min want (max 1 (chunk p.reads))
  (p.bytes.take got, { bytes := p.bytes.drop got, reads := p.reads + 1 })

/-- `ReadExact`: the buffer it fills, or `none` for `false`; the outer `none` says that
the loop was not done within `fuel` iterations. -/
def readExact (chunk : ℕ → ℕ) : ℕ → PipeEnd → ℕ → Option (Option (List UInt8) × PipeEnd)
  | _, p, 0 => some (some [], p)
  | 0, _, _ + 1 => none
  | fuel + 1, p, want + 1 =>
    let r := readFile chunk p (want + 1)
    if r.1 = [] then some (none, r.2)
    else
      (readExact chunk fuel r.2 (want + 1 - r.1.length)).map fun q =>
        (q.1.map fun tail => r.1 ++ tail, q.2)

/-- The read of the payload, which is left out when there is none. -/
def readPayload (chunk : ℕ → ℕ) (fuel : ℕ) (p : PipeEnd) (hdr : EventHeader) :
    Option (Option (List UInt8) × PipeEnd) :=
  if hdr.payloadBytes > 0 then readExact chunk fuel p hdr.payloadBytes.toNat
  else some (some [], p)

/-- `PipeServer::ReaderLoop` from its `i`th test of `stop_` on, with what `OnEvent` has
been called with before. -/
def readerLoop (chunk : ℕ → ℕ) (stop : ℕ → Bool) :
    ℕ → ℕ → PipeEnd → List Delivery → Option (List Delivery)
  | 0, _, _, _ => none
  | fuel + 1, i, p, out =>
    if stop i then some out
    else
      match readExact chunk fuel p EventHeader.size with
      | none => none
      | some (none, _) => some out
      | some (some buf, p) =>
        let hdr := EventHeader.read buf
        if hdr.magic ≠ kProtocolMagic then some out
        else
          match readPayload chunk fuel p hdr with
          | none => none
          | some (none, _) => some out
          | some (some payload, p) => readerLoop chunk stop fuel (i + 1) p (out ++ [(hdr, payload)])

/-! ### Reading -/

theorem readFile_of_nil (chunk : ℕ → ℕ) {p : PipeEnd} (want : ℕ) (hp : p.bytes = []) :
    readFile chunk p want = ([], { bytes := [], reads := p.reads + 1 }) := by
  simp [readFile, hp]

/-- Before the end of the stream a `ReadFile` makes progress. -/
theorem readFile_of_ne_nil (chunk : ℕ → ℕ) {p : PipeEnd} (want : ℕ) (hp : p.bytes ≠ []) :
    ∃ g, 1 ≤ g ∧ g ≤ want + 1 ∧ g ≤ p.bytes.length ∧
      readFile chunk p (want + 1)
        = (p.bytes.take g, { bytes := p.bytes.drop g, reads := p.reads + 1 }) := by
  have hpos : 0 < p.bytes.length := List.length_pos_iff.mpr hp
  obtain ⟨g, hg⟩ : ∃ g, min (want + 1) (max 1 (chunk p.reads)) = g := ⟨_, rfl⟩
  by_cases hgl : g ≤ p.bytes.length
  · exact ⟨g, by omega, by omega, hgl, by rw [readFile, hg]⟩
  · -- fewer bytes are left than the call has room for
    refine ⟨p.bytes.length, hpos, by omega, Nat.le_refl _, ?_⟩
    rw [readFile, hg, List.take_length, List.drop_length, List.take_of_length_le (by omega),
      List.drop_eq_nil_of_le (by omega)]

/-- **Exact reads.**  `ReadExact` gives the next `want` bytes if there are as many,
whatever pieces they come in. -/
theorem readExact_eq (chunk : ℕ → ℕ) {fuel : ℕ} {p : PipeEnd} (want : ℕ)
    (hfuel : p.bytes.length < fuel) :
    ∃ k, readExact chunk fuel p want
      = some (if want ≤ p.bytes.length then some (p.bytes.take want) else none,
          { bytes := p.bytes.drop want, reads := k }) := by
  induction fuel generalizing p want with
  | zero => omega
  | succ fuel ih =>
    cases want with
    | zero => exact ⟨p.reads, by simp [readExact]⟩
    | succ want =>
      by_cases hp : p.bytes = []
      · refine ⟨p.reads + 1, ?_⟩
        simp [readExact, readFile_of_nil chunk (want + 1) hp, hp]
      · obtain ⟨g, hg, hgw, hgl, hread⟩ := readFile_of_ne_nil chunk want hp
        have hlen : (p.bytes.take g).length = g := by
          rw [List.length_take]
          omega
        have hne : p.bytes.take g ≠ [] := by
          intro h
          rw [h] at hlen
          simp at hlen
          omega
        -- the rest of the buffer is read from the rest of the stream
        obtain ⟨k, hk⟩ := ih (p := { bytes := p.bytes.drop g, reads := p.reads + 1 })
          (want + 1 - g) (by rw [List.length_drop]; omega)
        refine ⟨k, ?_⟩
        have hrest : want + 1 - g ≤ (p.bytes.drop g).length ↔ want + 1 ≤ p.bytes.length := by
          rw [List.length_drop]
          omega
        have hdrop : (p.bytes.drop g).drop (want + 1 - g) = p.bytes.drop (want + 1) := by
          rw [List.drop_drop]
          congr 1
          omega
        have htake : p.bytes.take g ++ (p.bytes.drop g).take (want + 1 - g)
            = p.bytes.take (want + 1) := by
          rw [← List.take_add]
          congr 1
          omega
        simp only [readExact, hread, if_neg hne, hlen, hk, Option.map_some, hdrop, hrest]
        split
        · rw [Option.map_some, htake]
        · rfl

theorem readPayload_eq (chunk : ℕ → ℕ) {fuel : ℕ} {p : PipeEnd} (hdr : EventHeader)
    (hfuel : p.bytes.length < fuel) :
    ∃ k, readPayload chunk fuel p hdr
      = some (if hdr.payloadBytes.toNat ≤ p.bytes.length
            then some (p.bytes.take hdr.payloadBytes.toNat) else none,
          { bytes := p.bytes.drop hdr.payloadBytes.toNat, reads := k }) := by
  unfold readPayload
  split
  · exact readExact_eq chunk _ hfuel
  · rename_i h
    have hzero : hdr.payloadBytes.toNat = 0 := by
      simpa [UInt32.lt_iff_toNat_lt] using h
    exact ⟨p.reads, by simp [hzero]⟩

/-- One round of the loop reads the message at the front of the stream. -/
theorem readerLoop_succ (chunk : ℕ → ℕ) (stop : ℕ → Bool) {fuel i : ℕ} {p : PipeEnd}
    (out : List Delivery) (hfuel : p.bytes.length < fuel) (hi : stop i = false) :
    (Message.wire.dec p.bytes = none ∧ readerLoop chunk stop (fuel + 1) i p out = some out) ∨
    ∃ m rest k, Message.wire.dec p.bytes = some (m, rest) ∧ rest.length < p.bytes.length ∧
      readerLoop chunk stop (fuel + 1) i p out
        = readerLoop chunk stop fuel (i + 1) { bytes := rest, reads := k } (out ++ [m.val]) := by
  obtain ⟨k₁, hread⟩ := readExact_eq chunk EventHeader.size hfuel
  have hsize : 0 < EventHeader.size := by decide
  simp only [readerLoop, hi, hread, Message.wire, Message.dec]
  by_cases hhdr : EventHeader.size ≤ p.bytes.length
  · obtain ⟨hdr, hhdr'⟩ : ∃ hdr, EventHeader.read (p.bytes.take EventHeader.size) = hdr := ⟨_, rfl⟩
    obtain ⟨tail, htail⟩ : ∃ tail, p.bytes.drop EventHeader.size = tail := ⟨_, rfl⟩
    have htl : tail.length = p.bytes.length - EventHeader.size := by
      rw [← htail, List.length_drop]
    simp only [if_pos hhdr, hhdr', htail]
    by_cases hmagic : hdr.magic = kProtocolMagic
    · obtain ⟨k₂, hread₂⟩ := readPayload_eq chunk (p := { bytes := tail, reads := k₁ }) hdr
        (show tail.length < fuel by omega)
      by_cases hpay : hdr.payloadBytes.toNat ≤ tail.length
      · refine .inr ⟨⟨(hdr, tail.take hdr.payloadBytes.toNat), hmagic, by simp [hpay]⟩,
          tail.drop hdr.payloadBytes.toNat, k₂, ?_, ?_, ?_⟩
        · simp [hmagic, hpay]
        · rw [List.length_drop]
          omega
        · simp [hmagic, hread₂, hpay]
      · exact .inl ⟨by simp [hpay], by simp [hmagic, hread₂, hpay]⟩
    · exact .inl ⟨by simp [hmagic], by simp [hmagic]⟩
  · exact .inl ⟨by simp [hhdr], by simp [hhdr]⟩

/-- **The loop.**  It ends, and delivers the messages at the front of the stream: all of
them, if nothing stops it. -/
theorem readerLoop_eq (chunk : ℕ → ℕ) (stop : ℕ → Bool) {fuel : ℕ} (i : ℕ) {p : PipeEnd}
    (out : List Delivery) (hfuel : p.bytes.length + 2 ≤ fuel) :
    ∃ n, readerLoop chunk stop fuel i p out
        = some (out ++ (Message.wire.decAll n p.bytes).map Subtype.val) ∧
      ((∀ j, stop j = false) → ∀ m, n ≤ m →
        Message.wire.decAll m p.bytes = Message.wire.decAll n p.bytes) := by
  induction fuel generalizing i p out with
  | zero => omega
  | succ fuel ih =>
    cases hi : stop i with
    | true =>
      refine ⟨0, by simp [readerLoop, hi, Framing.decAll], fun h => ?_⟩
      rw [h i] at hi
      cases hi
    | false =>
      rcases readerLoop_succ chunk stop out (by omega : p.bytes.length < fuel) hi with
        ⟨hdec, hloop⟩ | ⟨m, rest, k, hdec, hlt, hloop⟩
      · refine ⟨0, ?_, fun _ m _ => ?_⟩
        · rw [hloop, Framing.decAll_of_none _ hdec]
          simp
        · rw [Framing.decAll_of_none _ hdec, Framing.decAll_of_none _ hdec]
      · obtain ⟨n, hn, hstable⟩ := ih (i + 1) (p := { bytes := rest, reads := k })
          (out ++ [m.val]) (show rest.length + 2 ≤ fuel by omega)
        refine ⟨n + 1, ?_, fun hstop n' hn' => ?_⟩
        · rw [hloop, hn, Framing.decAll_of_some _ hdec]
          simp
        · obtain ⟨n', rfl⟩ : ∃ k, n' = k + 1 := ⟨n' - 1, by omega⟩
          rw [Framing.decAll_of_some _ hdec, Framing.decAll_of_some _ hdec,
            hstable hstop n' (by omega)]

/-- **Whole streams.**  Messages that arrive completely are all delivered. -/
theorem readerLoop_encAll (chunk : ℕ → ℕ) {stop : ℕ → Bool} (hstop : ∀ i, stop i = false)
    (ms : List Message) {fuel : ℕ} (hfuel : (Message.wire.encAll ms).length + 2 ≤ fuel) :
    readerLoop chunk stop fuel 0 { bytes := Message.wire.encAll ms } []
      = some (ms.map Subtype.val) := by
  obtain ⟨n, hn, hstable⟩ := readerLoop_eq chunk stop 0 (p := { bytes := Message.wire.encAll ms })
    [] hfuel
  -- more rounds than there are messages change nothing
  have hmore := hstable hstop (max n ms.length) (Nat.le_max_left _ _)
  rw [hn, ← hmore, Message.wire.decAll_encAll (Nat.le_max_right _ _), List.nil_append]

/-! ### From `Send` to `OnEvent` -/

section Delivery

variable {T : Type*} [DecidableEq T]

/-- What `OnEvent` is called with when the first `cut` bytes that the clients write
arrive; `none` if the reader has not stopped by then. -/
def delivered (chunk : ℕ → ℕ) (stop : ℕ → Bool) (xs : List (PipeClient.Act T)) (cut fuel : ℕ) :
    Option (List Delivery) :=
  readerLoop chunk stop fuel 0 { bytes := (PipeClient.run xs).written.take cut } []

/-- A record with the payload `bs`. -/
def sendOf (bs : List UInt8) (h : bs.length < 2 ^ 32) : SendCall :=
  { kind := 2, payload := bs, tsNs := 5, fits := h }

/-- Two threads whose calls of `Send` overlap; the writes of the second are cut short. -/
def overlapRun : List (PipeClient.Act Bool) :=
  [.enter false (sendOf [1, 2, 3] (by decide)), .enter true (sendOf [] (by decide)),
    .locked true ⟨true, 24⟩ ⟨true, 0⟩, .locked false ⟨true, 24⟩ ⟨true, 2⟩]

end Delivery

end PipeEnd

end Dx12Track
