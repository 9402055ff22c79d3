import HibanaPico.SensorPanel.Sample
import HibanaPico.Support.Runs
import HibanaPico.Support.Lists

/-!
# Sensor panel — Fresh

From the DHT20 on the Pico 2 W to the sample the Uno Q hands to its LLM and face roles: the sampler,
the UDP path, the thread that reads the raw socket, and `Pico2wSensorSource::next_sample`.

* `Pico2wSensorSource.take`, `advance`, `respond`: the parts of `next_sample`.
* `freshMachine`: all of it, with the clock of the Uno Q and any order of arrivals and calls.
* `Backed`: a handed sample carries a checked DHT20 read, received within the stale timeout.
* `Unspoiled`, `Timely`: what a call takes out last is of a checked read and itself FRESH; no call
  comes too late after its reception but not after its take-out.
* `fresh_backed_iff`: of unspoiled datagrams every FRESH sample is backed exactly if the calls are
  timely.
-/

namespace HibanaPico.SensorPanel
open HibanaPico.Support
open HibanaPico.Transport

inductive Pico2wSensorMode where
  | udp
  | off
  deriving DecidableEq, Repr

/-- `Pico2wSensorSource`; its channel is part of the machine. -/
structure Pico2wSensorSource where
  latest : Pico2wSensorSample
  latestAt : Option ℕ
  seq : U16
  mode : Pico2wSensorMode
  deriving DecidableEq

namespace Pico2wSensorSource

/-- `from_env`, in a mode. -/
def fromEnv (mode : Pico2wSensorMode) : Pico2wSensorSource := ⟨.pending 0, none, 0, mode⟩

/-- A turn of the loop of `next_sample`: the sample of the channel becomes the latest. -/
def take (self : Pico2wSensorSource) (sample : Pico2wSensorSample) (now : ℕ) :
    Except ProtocolError Pico2wSensorSource :=
  match sample.withStatusAndSeq pico2wSensorStatusFresh self.seq with
  | .ok latest => .ok { self with latest := latest, latestAt := some now }
  | .error e => .error e

/-- `self.seq = self.seq.wrapping_add(1)`. -/
def advance (self : Pico2wSensorSource) : Pico2wSensorSource := { self with seq := self.seq + 1 }

/-- What `next_sample` returns once the channel is empty. -/
def respond (self : Pico2wSensorSource) (staleTimeout now : ℕ) :
    Except ProtocolError Pico2wSensorSample :=
  if self.mode = .udp then
    match self.latestAt with
    | none => .ok (.pending self.seq)
    | some latestAt =>
        if now - latestAt > staleTimeout then
          self.latest.withStatusAndSeq pico2wSensorStatusStale self.seq
        else self.latest.withStatusAndSeq self.latest.status self.seq
  else self.latest.withStatusAndSeq self.latest.status self.seq

theorem take_eq (self : Pico2wSensorSource) (sample : Pico2wSensorSample) (now : ℕ) :
    self.take sample now = .ok { self with
      latest := ⟨pico2wSensorStatusFresh, sample.temperatureCX10, sample.humidityPctX10,
        sample.lightRaw, self.seq, validate_fresh⟩
      latestAt := some now } := by
  simp only [take, sample.withStatusAndSeq_of_valid validate_fresh]

/-- The three answers of `next_sample` in udp mode. -/
theorem respond_eq {self : Pico2wSensorSource} (hmode : self.mode = .udp) (staleTimeout now : ℕ) :
    self.respond staleTimeout now = .ok (match self.latestAt with
      | none => .pending self.seq
      | some latestAt =>
          if now - latestAt > staleTimeout then
            { self.latest with
              status := pico2wSensorStatusStale, seq := self.seq, valid := validate_stale }
          else { self.latest with seq := self.seq }) := by
  unfold respond
  rw [if_pos hmode]
  cases self.latestAt with
  | none => rfl
  | some latestAt =>
      dsimp only
      by_cases hstale : now - latestAt > staleTimeout
      · rw [if_pos hstale, if_pos hstale, self.latest.withStatusAndSeq_of_valid validate_stale]
      · rw [if_neg hstale, if_neg hstale, self.latest.withStatusAndSeq_of_valid self.latest.valid]

end Pico2wSensorSource

/-- `pico2w_sample_from_payload`, the driver's check, and `decode_pico2w_sensor_udp_payload`, the
Uno Q's. -/
def pico2wSampleFromPayload (input : List U8) : Option Pico2wSensorSample :=
  if input.length ≠ pico2wSensorSampleBytes then none
  else match Pico2wSensorSample.decodePayload input with
    | .ok sample => some sample
    | .error _ => none

theorem length_of_pico2wSampleFromPayload {input : List U8} {sample : Pico2wSensorSample}
    (h : pico2wSampleFromPayload input = some sample) : input.length = pico2wSensorSampleBytes := by
  rw [pico2wSampleFromPayload] at h
  split at h
  · cases h
  · rename_i hlength
    exact not_not.mp hlength

/-- A datagram on the UDP path, and the DHT20 read it was made from, if the sampler made it. -/
structure SensorDatagram where
  payload : List U8
  bus : Option Dht20Bus
  deriving DecidableEq

/-- A sample the raw socket's thread has decoded, the read behind it, and when it was received. -/
structure ReceivedSample where
  sample : Pico2wSensorSample
  bus : Option Dht20Bus
  receivedAt : ℕ
  deriving DecidableEq

/-- A sample handed to the LLM and face roles, the received one it was made from, and when. -/
structure HandedSample where
  sample : Pico2wSensorSample
  made : Option ReceivedSample
  handedAt : ℕ
  deriving DecidableEq

/-- Where `next_sample` is. -/
inductive SourcePhase where
  | idle
  | draining
  | answering
  deriving DecidableEq, Repr

structure FreshState where
  /-- The clock of the Uno Q. -/
  now : ℕ
  /-- `SENSOR_UDP_SEQ`. -/
  sensorUdpSeq : U16
  /-- Every datagram the Pico 2 W has sent, oldest first. -/
  sent : List SensorDatagram
  /-- The sample whose ack the thread is sending. -/
  inHand : Option ReceivedSample
  /-- The channel from the thread to the source. -/
  channel : List ReceivedSample
  source : Pico2wSensorSource
  phase : SourcePhase
  /-- The received sample taken out of the channel last, and when. -/
  taken : Option (ReceivedSample × ℕ)
  handed : List HandedSample
  deriving DecidableEq

def FreshState.init : FreshState :=
  ⟨0, 0, [], none, [], .fromEnv .udp, .idle, none, []⟩

inductive FreshAction where
  | tick
  /-- The guest reads a sample of the sampler's, and writes it to the Uno Q. -/
  | cycle (lightRaw : U16) (bus : Dht20Bus)
  /-- A guest writes a payload of its own to the Uno Q. -/
  | write (payload : List U8)
  /-- A datagram sent before is received; one that never is, is lost. -/
  | receive (index : ℕ)
  /-- The ack of the received sample goes out, or fails; then the sample is dropped. -/
  | forward (acked : Bool)
  /-- `next_sample` is called. -/
  | call
  /-- `try_recv` finds a sample. -/
  | take
  /-- `try_recv` finds the channel empty. -/
  | drained
  /-- `next_sample` looks at the age of the latest sample, and returns. -/
  | answer
  deriving DecidableEq

/-- The payload of a sample the sampler reads, in the nine-byte buffer of `handle_fd_read`. -/
def sampledPayload (lightRaw : U16) (bus : Dht20Bus) (seq : U16) : Option (List U8) :=
  match rp2wReadPico2wSensorSample lightRaw bus seq (List.replicate pico2wSensorSampleBytes 0) with
  | .ok (buffer, len) => some (buffer.take len)
  | .error _ => none

namespace FreshState

/-- `handle_fd_write_uno_q` sends a payload it can decode. -/
def send (s : FreshState) (payload : List U8) (bus : Option Dht20Bus) : Option FreshState :=
  match pico2wSampleFromPayload payload with
  | some _ => some { s with sent := s.sent ++ [⟨payload, bus⟩] }
  | none => none

def next (staleTimeout : ℕ) (s : FreshState) : FreshAction → Option FreshState
  | .tick => some { s with now := s.now + 1 }
  | .cycle lightRaw bus =>
      match sampledPayload lightRaw bus s.sensorUdpSeq with
      | some payload =>
          { s with sensorUdpSeq := s.sensorUdpSeq + 1 }.send payload (some bus)
      | none => none
  | .write payload => s.send payload none
  | .receive index =>
      match s.inHand, s.sent[index]? with
      | none, some datagram =>
          match pico2wSampleFromPayload datagram.payload with
          | some sample => some { s with inHand := some ⟨sample, datagram.bus, s.now⟩ }
          | none => some s
      | _, _ => none
  | .forward acked =>
      match s.inHand with
      | some received => some { s with
          inHand := none
          channel := if acked then s.channel ++ [received] else s.channel }
      | none => none
  | .call => if s.phase = .idle then some { s with phase := .draining } else none
  | .take =>
      match s.phase, s.channel with
      | .draining, received :: rest =>
          match s.source.take received.sample s.now with
          | .ok source => some { s with
              channel := rest, source := source, taken := some (received, s.now) }
          | .error _ => none
      | _, _ => none
  | .drained =>
      match s.phase, s.channel with
      | .draining, [] => some { s with source := s.source.advance, phase := .answering }
      | _, _ => none
  | .answer =>
      match s.phase, s.source.respond staleTimeout s.now with
      | .answering, .ok sample => some { s with
          phase := .idle, handed := s.handed ++ [⟨sample, s.taken.map Prod.fst, s.now⟩] }
      | _, _ => none

end FreshState

/-- The sampler, the UDP path and the source, for a stale timeout. -/
def freshMachine (staleTimeout : ℕ) : Machine FreshState FreshAction :=
  ⟨FreshState.next staleTimeout⟩

/-! ### What a step does -/

theorem pico2wSampleFromPayload_encode (sample : Pico2wSensorSample) :
    pico2wSampleFromPayload sample.encode = some sample := by
  unfold pico2wSampleFromPayload
  rw [if_neg fun h => h sample.encode_length, Pico2wSensorSample.decodePayload_encode]

theorem sampledPayload_eq (lightRaw : U16) (bus : Dht20Bus) (seq : U16) :
    sampledPayload lightRaw bus seq =
      some (rp2wPico2wSensorSample (rp2wReadSensorSample lightRaw bus) seq).encode := rfl

/-- The steps of the machine. -/
inductive FreshStep (staleTimeout : ℕ) (s : FreshState) : FreshAction → FreshState → Prop
  | tick : FreshStep staleTimeout s .tick { s with now := s.now + 1 }
  | cycle (lightRaw : U16) (bus : Dht20Bus) :
      FreshStep staleTimeout s (.cycle lightRaw bus) { s with
        sensorUdpSeq := s.sensorUdpSeq + 1
        sent := s.sent ++ [⟨(rp2wPico2wSensorSample (rp2wReadSensorSample lightRaw bus)
          s.sensorUdpSeq).encode, some bus⟩] }
  | write (payload : List U8) :
      FreshStep staleTimeout s (.write payload) { s with sent := s.sent ++ [⟨payload, none⟩] }
  | ignore (index : ℕ) : FreshStep staleTimeout s (.receive index) s
  | receive (index : ℕ) (datagram : SensorDatagram) (sample : Pico2wSensorSample)
      (hsent : s.sent[index]? = some datagram)
      (hsample : pico2wSampleFromPayload datagram.payload = some sample) :
      FreshStep staleTimeout s (.receive index)
        { s with inHand := some ⟨sample, datagram.bus, s.now⟩ }
  | forward (acked : Bool) (received : ReceivedSample) (hhand : s.inHand = some received) :
      FreshStep staleTimeout s (.forward acked) { s with
        inHand := none
        channel := if acked then s.channel ++ [received] else s.channel }
  | call (hphase : s.phase = .idle) :
      FreshStep staleTimeout s .call { s with phase := .draining }
  | take (received : ReceivedSample) (rest : List ReceivedSample) (hphase : s.phase = .draining)
      (hchannel : s.channel = received :: rest) :
      FreshStep staleTimeout s .take { s with
        channel := rest
        source := { s.source with
          latest := ⟨pico2wSensorStatusFresh, received.sample.temperatureCX10,
            received.sample.humidityPctX10, received.sample.lightRaw, s.source.seq,
            validate_fresh⟩
          latestAt := some s.now }
        taken := some (received, s.now) }
  | drained (hphase : s.phase = .draining) (hchannel : s.channel = []) :
      FreshStep staleTimeout s .drained
        { s with source := s.source.advance, phase := .answering }
  | answer (sample : Pico2wSensorSample) (hphase : s.phase = .answering)
      (hsample : s.source.respond staleTimeout s.now = .ok sample) :
      FreshStep staleTimeout s .answer { s with
        phase := .idle, handed := s.handed ++ [⟨sample, s.taken.map Prod.fst, s.now⟩] }

/-- **The step lemma.** -/
theorem FreshState.next_step {staleTimeout : ℕ} {s t : FreshState} {a : FreshAction}
    (h : s.next staleTimeout a = some t) : FreshStep staleTimeout s a t := by
  cases a with
  | tick => cases h; exact .tick
  | cycle lightRaw bus =>
      simp only [next, sampledPayload_eq, send, pico2wSampleFromPayload_encode,
        Option.some.injEq] at h
      exact h ▸ .cycle lightRaw bus
  | write payload =>
      simp only [next, send] at h
      split at h
      · cases h; exact .write payload
      · cases h
  | receive index =>
      simp only [next] at h
      split at h
      · rename_i datagram hhand hsent
        cases hsample : pico2wSampleFromPayload datagram.payload with
        | none => rw [hsample] at h; cases h; exact .ignore index
        | some sample =>
            rw [hsample] at h; cases h; exact .receive index datagram sample hsent hsample
      · cases h
  | forward acked =>
      simp only [next] at h
      cases hhand : s.inHand with
      | none => rw [hhand] at h; cases h
      | some received => rw [hhand] at h; cases h; exact .forward acked received hhand
  | call =>
      simp only [next] at h
      split at h
      · rename_i hphase; cases h; exact .call hphase
      · cases h
  | take =>
      simp only [next] at h
      split at h
      · rename_i received rest hphase hchannel
        rw [Pico2wSensorSource.take_eq] at h
        cases h
        exact .take received rest hphase hchannel
      · cases h
  | drained =>
      simp only [next] at h
      split at h
      · rename_i hphase hchannel; cases h; exact .drained hphase hchannel
      · cases h
  | answer =>
      simp only [next] at h
      split at h
      · rename_i sample hphase hsample; cases h; exact .answer sample hphase hsample
      · cases h

/-! ### The invariant -/

/-- A received sample with a DHT20 read behind it is the sampler's sample of that read. -/
def ReceivedSample.Made (r : ReceivedSample) : Prop :=
  ∀ bus, r.bus = some bus → ∃ lightRaw seq,
    r.sample = rp2wPico2wSensorSample (rp2wReadSensorSample lightRaw bus) seq

/-- The source holds the readings of the sample taken out last, or nothing yet. -/
def FreshState.Holds (s : FreshState) : Prop :=
  (s.taken = none ∧ s.source.latestAt = none) ∨
    ∃ r takenAt, s.taken = some (r, takenAt) ∧ s.source.latestAt = some takenAt ∧ r.Made ∧
      s.source.latest.status = pico2wSensorStatusFresh ∧
      s.source.latest.temperatureCX10 = r.sample.temperatureCX10 ∧
      s.source.latest.humidityPctX10 = r.sample.humidityPctX10

/-- The samples handed so far are numbered from one, modulo 2^16. -/
def FreshState.Numbered (s : FreshState) : Prop :=
  ∀ k h, s.handed[k]? = some h → h.sample.seq = BitVec.ofNat 16 (k + 1)

structure FreshState.Inv (s : FreshState) : Prop where
  mode : s.source.mode = .udp
  seq : s.source.seq =
    BitVec.ofNat 16 (s.handed.length + if s.phase = .answering then 1 else 0)
  numbered : s.Numbered
  sent : ∀ d ∈ s.sent, ∀ bus, d.bus = some bus → ∃ lightRaw seq,
    d.payload = (rp2wPico2wSensorSample (rp2wReadSensorSample lightRaw bus) seq).encode
  inHand : ∀ r, s.inHand = some r → r.Made
  channel : ∀ r ∈ s.channel, r.Made
  holds : s.Holds

theorem FreshState.inv_init : FreshState.init.Inv where
  mode := rfl
  seq := rfl
  numbered := fun k h hk => by simp [init] at hk
  sent := fun d hd => by simp [init] at hd
  inHand := fun r hr => by cases hr
  channel := fun r hr => by simp [init] at hr
  holds := .inl ⟨rfl, rfl⟩

/-- An answer carries the source's sequence number. -/
theorem Pico2wSensorSource.respond_seq {self : Pico2wSensorSource} (hmode : self.mode = .udp)
    {staleTimeout now : ℕ} {sample : Pico2wSensorSample}
    (h : self.respond staleTimeout now = .ok sample) : sample.seq = self.seq := by
  rw [respond_eq hmode] at h
  cases h
  split
  · rfl
  · split <;> rfl

theorem FreshState.Inv.step {staleTimeout : ℕ} {s t : FreshState} {a : FreshAction} (I : s.Inv)
    (h : (freshMachine staleTimeout).next s a = some t) : t.Inv := by
  cases FreshState.next_step h with
  | tick => exact { I with }
  | cycle lightRaw bus =>
      refine { I with sent := fun d hd => ?_ }
      rcases List.mem_append.mp hd with hold | hnew
      · exact I.sent d hold
      · cases List.mem_singleton.mp hnew
        rintro _ ⟨⟩
        exact ⟨lightRaw, s.sensorUdpSeq, rfl⟩
  | write payload =>
      refine { I with sent := fun d hd => ?_ }
      rcases List.mem_append.mp hd with hold | hnew
      · exact I.sent d hold
      · cases List.mem_singleton.mp hnew
        intro bus hbus
        cases hbus
  | ignore => exact I
  | receive index datagram sample hsent hsample =>
      refine { I with inHand := fun r hr => ?_ }
      cases hr
      intro bus hbus
      obtain ⟨lightRaw, seq, hpayload⟩ := I.sent datagram (List.mem_of_getElem? hsent) bus hbus
      rw [hpayload, pico2wSampleFromPayload_encode] at hsample
      exact ⟨lightRaw, seq, (Option.some.inj hsample).symm⟩
  | forward acked received hhand =>
      refine { I with inHand := fun r hr => ?_, channel := fun r hr => ?_ }
      · cases hr
      · cases acked with
        | false => exact I.channel r hr
        | true =>
            rcases List.mem_append.mp hr with hold | hnew
            · exact I.channel r hold
            · cases List.mem_singleton.mp hnew
              exact I.inHand received hhand
  | call hphase =>
      refine { I with seq := ?_ }
      have hseq := I.seq
      rw [hphase] at hseq
      exact hseq
  | take received rest hphase hchannel =>
      refine { I with channel := fun r hr => ?_, holds := .inr ?_ }
      · exact I.channel r (hchannel ▸ List.mem_cons_of_mem _ hr)
      · exact ⟨received, s.now, rfl, rfl, I.channel received (hchannel ▸ List.mem_cons_self),
          rfl, rfl, rfl⟩
  | drained hphase _ =>
      refine { I with seq := ?_ }
      have hseq := I.seq
      rw [hphase, if_neg (by decide), Nat.add_zero] at hseq
      show s.source.seq + 1 = BitVec.ofNat 16 (s.handed.length + 1)
      rw [hseq, BitVec.ofNat_add]
      rfl
  | answer sample hphase hsample =>
      have hseq := I.seq
      rw [if_pos hphase] at hseq
      refine { I with seq := ?_, numbered := fun k h hk => ?_ }
      · rw [hseq, List.length_append]
        rfl
      · rcases getElem?_concat_cases hk with hold | ⟨hlast, hnew⟩
        · exact I.numbered k h hold
        · rw [hnew, hlast, Pico2wSensorSource.respond_seq I.mode hsample, hseq]

/-! ### FRESH samples -/

/-- A handed sample carries the readings of a DHT20 read that passed its CRC, from a datagram that
was itself FRESH and received within the stale timeout. -/
def HandedSample.Backed (staleTimeout : ℕ) (h : HandedSample) : Prop :=
  ∃ r bus tempCX100 humidityX100, h.made = some r ∧ r.bus = some bus ∧ bus.Checked ∧
    dht20Read bus = some (tempCX100, humidityX100) ∧
    h.sample.temperatureCX10 = clampI32ToI16 (tempCX100.tdiv 10) ∧
    h.sample.humidityPctX10 = clampU32ToU16 (humidityX100 / 10) ∧
    r.sample.status = pico2wSensorStatusFresh ∧ h.handedAt - r.receivedAt ≤ staleTimeout

/-- Every sample handed with status FRESH is backed. -/
def FreshState.FreshBacked (staleTimeout : ℕ) (s : FreshState) : Prop :=
  ∀ h ∈ s.handed, h.sample.status = pico2wSensorStatusFresh → h.Backed staleTimeout

/-- A datagram made from a checked DHT20 read, and itself FRESH. -/
def ReceivedSample.Genuine (r : ReceivedSample) : Prop :=
  (∃ bus, r.bus = some bus ∧ bus.Checked) ∧ r.sample.status = pico2wSensorStatusFresh

instance (r : ReceivedSample) : Decidable r.Genuine :=
  decidable_of_iff ((∃ bus ∈ r.bus, bus.Checked) ∧ r.sample.status = pico2wSensorStatusFresh)
    Iff.rfl

/-- A datagram taken out of the channel with none behind it is genuine. -/
def Unspoiled (s : FreshState) (a : FreshAction) : Prop :=
  a = .take → ∀ r, s.channel = [r] → r.Genuine

/-- No call looks at its latest sample later than the stale timeout after the datagram was received,
but not later than that after it was taken out. -/
def Timely (staleTimeout : ℕ) (s : FreshState) (a : FreshAction) : Prop :=
  a = .answer → ∀ r takenAt, s.taken = some (r, takenAt) →
    s.now - takenAt ≤ staleTimeout → s.now - r.receivedAt ≤ staleTimeout

instance (s : FreshState) (a : FreshAction) : Decidable (Unspoiled s a) :=
  decidable_of_iff (a = .take → ∀ r ∈ s.channel, s.channel = [r] → r.Genuine)
    ⟨fun h ha r hr => h ha r (hr ▸ List.mem_singleton_self r) hr, fun h ha r _ hr => h ha r hr⟩

instance (staleTimeout : ℕ) (s : FreshState) (a : FreshAction) :
    Decidable (Timely staleTimeout s a) :=
  decidable_of_iff (a = .answer → ∀ p ∈ s.taken,
    s.now - p.2 ≤ staleTimeout → s.now - p.1.receivedAt ≤ staleTimeout)
    ⟨fun h ha r takenAt hr => h ha (r, takenAt) hr, fun h ha p hp => h ha p.1 p.2 hp⟩

/-- Once a call has emptied the channel, what was taken out last is genuine. -/
def FreshState.Sound (s : FreshState) : Prop :=
  (s.phase = .draining → s.channel = []) →
    ∀ r takenAt, s.taken = some (r, takenAt) → r.Genuine

theorem FreshState.Sound.step {staleTimeout : ℕ} {s t : FreshState} {a : FreshAction} (S : s.Sound)
    (unspoiled : Unspoiled s a) (h : (freshMachine staleTimeout).next s a = some t) : t.Sound := by
  cases FreshState.next_step h with
  | tick | cycle | write | ignore | receive => exact S
  | forward acked received hhand =>
      intro hempty
      refine S fun hphase => ?_
      have hchannel := hempty hphase
      cases acked with
      | false => exact hchannel
      | true => exact absurd hchannel (List.append_ne_nil_of_right_ne_nil _ (List.cons_ne_nil _ _))
  | call hphase =>
      -- the call before left a genuine sample, or there was none
      exact fun _ => S fun hdraining => by rw [hphase] at hdraining; cases hdraining
  | take received rest hphase hchannel =>
      intro hempty r takenAt htaken
      cases htaken
      obtain rfl : rest = [] := hempty hphase
      exact unspoiled rfl received hchannel
  | drained hphase hchannel => exact fun _ => S fun _ => hchannel
  | answer sample hphase hsample =>
      exact fun _ => S fun hdraining => by rw [hphase] at hdraining; cases hdraining

/-- The readings of a sample of a checked read. -/
theorem ReceivedSample.Made.readings {r : ReceivedSample} {bus : Dht20Bus} (hmade : r.Made)
    (hbus : r.bus = some bus) (hchecked : bus.Checked) :
    ∃ tempCX100 humidityX100, dht20Read bus = some (tempCX100, humidityX100) ∧
      r.sample.temperatureCX10 = clampI32ToI16 (tempCX100.tdiv 10) ∧
      r.sample.humidityPctX10 = clampU32ToU16 (humidityX100 / 10) := by
  obtain ⟨lightRaw, seq, hsample⟩ := hmade bus hbus
  obtain ⟨⟨tempCX100, humidityX100⟩, hread⟩ :=
    Option.isSome_iff_exists.mp ((dht20Read_isSome bus).mpr hchecked)
  refine ⟨tempCX100, humidityX100, hread, ?_, ?_⟩
  · rw [hsample, rp2wPico2wSensorSample_eq, rp2wReadSensorSample, hread]
    rfl
  · rw [hsample, rp2wPico2wSensorSample_eq, rp2wReadSensorSample, hread]
    rfl

/-- What an answer hands on of a genuine sample is backed as long as it was received in time. -/
theorem FreshState.backed_iff_of_taken {staleTimeout : ℕ} {s : FreshState}
    {sample : Pico2wSensorSample} {r : ReceivedSample} {takenAt : ℕ}
    (htaken : s.taken = some (r, takenAt)) (hmade : r.Made) (hgenuine : r.Genuine)
    (htemp : sample.temperatureCX10 = r.sample.temperatureCX10)
    (hhum : sample.humidityPctX10 = r.sample.humidityPctX10) :
    HandedSample.Backed staleTimeout ⟨sample, s.taken.map Prod.fst, s.now⟩ ↔
      s.now - r.receivedAt ≤ staleTimeout := by
  have hheld : s.taken.map Prod.fst = some r := by rw [htaken]; rfl
  constructor
  · rintro ⟨r', _, _, _, hr', -, -, -, -, -, -, hage⟩
    obtain rfl : r = r' := Option.some.inj (hheld.symm.trans hr')
    exact hage
  · intro hage
    obtain ⟨⟨bus, hbus, hchecked⟩, hfresh⟩ := hgenuine
    obtain ⟨tempCX100, humidityX100, hread, htemp', hhum'⟩ := hmade.readings hbus hchecked
    exact ⟨r, bus, tempCX100, humidityX100, hheld, hbus, hchecked, hread, htemp.trans htemp',
      hhum.trans hhum', hfresh, hage⟩

/-- **An answer.**  After a genuine sample, what it hands on is backed, if it is FRESH, exactly if
the call is timely. -/
theorem FreshState.Inv.answer {staleTimeout : ℕ} {s : FreshState} {sample : Pico2wSensorSample}
    (I : s.Inv) (hgenuine : ∀ r takenAt, s.taken = some (r, takenAt) → r.Genuine)
    (hsample : s.source.respond staleTimeout s.now = .ok sample) :
    (sample.status = pico2wSensorStatusFresh →
      HandedSample.Backed staleTimeout ⟨sample, s.taken.map Prod.fst, s.now⟩) ↔
      Timely staleTimeout s .answer := by
  rw [Pico2wSensorSource.respond_eq I.mode, Except.ok.injEq] at hsample
  rcases I.holds with ⟨htaken, hat⟩ | ⟨r, takenAt, htaken, hat, hmade, hfresh, htemp, hhum⟩
  · -- Nothing has been taken yet: the answer is PENDING.
    rw [hat] at hsample
    refine iff_of_true (fun h => ?_) fun _ r takenAt hr => ?_
    · rw [← hsample] at h
      exact absurd h pending_ne_fresh
    · rw [htaken] at hr
      cases hr
  · rw [hat] at hsample
    by_cases hstale : s.now - takenAt > staleTimeout
    · -- The sample was taken too long ago: the answer is STALE.
      simp only [if_pos hstale] at hsample
      refine iff_of_true (fun h => ?_) fun _ r' at' hr' hage => ?_
      · rw [← hsample] at h
        exact absurd h stale_ne_fresh
      · obtain ⟨-, rfl⟩ := Prod.mk.inj (Option.some.inj (htaken.symm.trans hr'))
        exact absurd hage (Nat.not_le.mpr hstale)
    · simp only [if_neg hstale] at hsample
      have hstatus : sample.status = pico2wSensorStatusFresh := hsample ▸ hfresh
      rw [backed_iff_of_taken htaken hmade (hgenuine r takenAt htaken) (hsample ▸ htemp)
        (hsample ▸ hhum)]
      constructor
      · rintro h _ r' at' hr' -
        obtain ⟨rfl, -⟩ := Prod.mk.inj (Option.some.inj (htaken.symm.trans hr'))
        exact h hstatus
      · exact fun h _ => h rfl r takenAt htaken (Nat.not_lt.mp hstale)

/-- A step on unspoiled datagrams keeps every FRESH sample backed exactly if it is timely. -/
theorem FreshState.Inv.freshBacked_iff {staleTimeout : ℕ} {s t : FreshState} {a : FreshAction}
    (I : s.Inv) (S : s.Sound) (h : (freshMachine staleTimeout).next s a = some t) :
    t.FreshBacked staleTimeout ↔ s.FreshBacked staleTimeout ∧ Timely staleTimeout s a := by
  cases FreshState.next_step h with
  | answer sample hphase hsample =>
      have hgenuine := S fun hdraining => by rw [hphase] at hdraining; cases hdraining
      rw [← I.answer hgenuine hsample]
      constructor
      · intro H
        exact ⟨fun g hg => H g (List.mem_append_left _ hg),
          H _ (List.mem_append_right _ (List.mem_singleton.mpr rfl))⟩
      · rintro ⟨hold, hnew⟩ g hg
        rcases List.mem_append.mp hg with hg | hg
        · exact hold g hg
        · cases List.mem_singleton.mp hg
          exact hnew
  | _ => exact ⟨fun H => ⟨H, fun ha => by cases ha⟩, And.left⟩

/-- **What FRESH means.**  In every run, with any loss, delay and order of arrivals and calls, the
samples are numbered one by one; and where what the calls take out last is genuine, every sample
handed as FRESH carries a checked DHT20 read received within the stale timeout exactly if the calls
are timely. -/
theorem fresh_backed_iff (staleTimeout : ℕ) {actions : List FreshAction} {t : FreshState}
    (h : (freshMachine staleTimeout).exec .init actions = some t) :
    t.Numbered ∧ ((freshMachine staleTimeout).Along Unspoiled .init actions →
      (t.FreshBacked staleTimeout ↔
        (freshMachine staleTimeout).Along (Timely staleTimeout) .init actions)) := by
  have hinv : t.Inv := Machine.exec_keeps (fun _ _ _ I => I.step) FreshState.inv_init h
  have hinit : FreshState.init.FreshBacked staleTimeout := fun g hg => by
    simp [FreshState.init] at hg
  have hsound : FreshState.init.Sound := fun _ r takenAt htaken => by cases htaken
  refine ⟨hinv.numbered, fun unspoiled => ?_⟩
  rw [Machine.exec_iff_along_of_along (I := fun s => FreshState.Inv s ∧ s.Sound) (R := Unspoiled)
    (fun _ _ _ I unspoiled step => ⟨I.1.step step, I.2.step unspoiled step⟩)
    (fun _ _ _ I _ step => I.1.freshBacked_iff I.2 step) ⟨FreshState.inv_init, hsound⟩ unspoiled h,
    and_iff_right hinit]

/-- A read whose CRC agrees, handed on as FRESH at once, and as STALE once it is too old. -/
def checkedRead : List FreshAction :=
  [.cycle 900 ⟨true, some #v[0x1c, 0x99, 0x99, 0x96, 0x00, 0x00, 0xe0]⟩, .receive 0,
    .forward true, .call, .take, .drained, .answer, .tick, .tick, .call, .drained, .answer]

/-- The bus of a read whose CRC agrees. -/
def dht20Answer : Dht20Bus := ⟨true, some #v[0x1c, 0x99, 0x99, 0x96, 0x00, 0x00, 0xe0]⟩

theorem fresh_backed_iff_checkedRead : ∃ t,
    (freshMachine 1).exec .init checkedRead = some t ∧
      t.handed.map (·.sample.status) = [pico2wSensorStatusFresh, pico2wSensorStatusStale] ∧
      t.Numbered ∧ t.FreshBacked 1 := by
  have hrun : ((freshMachine 1).exec .init checkedRead).map
      (fun t => t.handed.map (·.sample.status)) =
        some [pico2wSensorStatusFresh, pico2wSensorStatusStale] := by decide +kernel
  obtain ⟨t, ht, hstatus⟩ := Option.map_eq_some_iff.mp hrun
  obtain ⟨hnumbered, hbacked⟩ := fresh_backed_iff 1 ht
  exact ⟨t, ht, hstatus, hnumbered, (hbacked (by decide +kernel)).mpr (by decide +kernel)⟩

/-- A read that failed on the bus: it is received at once, and handed on as FRESH. -/
def failedRead : List FreshAction :=
  [.cycle 0 ⟨false, none⟩, .receive 0, .forward true, .call, .take, .drained, .answer]

theorem fresh_backed_failedRead :
    ((freshMachine 5000).exec .init failedRead).isSome = true ∧
      ¬ ∀ actions t, (freshMachine 5000).exec .init actions = some t →
        t.Numbered ∧ t.FreshBacked 5000 := by
  refine ⟨by decide +kernel, fun H => ?_⟩
  have hrun : ((freshMachine 5000).exec .init failedRead).map
      (fun t => t.handed.map fun g => (g.sample.status, g.made.bind (·.bus))) =
        some [(pico2wSensorStatusFresh, some ⟨false, none⟩)] := by decide +kernel
  obtain ⟨t, ht, hhanded⟩ := Option.map_eq_some_iff.mp hrun
  obtain ⟨g, hg, hfields⟩ := List.map_eq_singleton_iff.mp hhanded
  obtain ⟨hstatus, hbus⟩ := Prod.mk.inj hfields
  obtain ⟨r, bus, _, _, hmade, hrbus, hchecked, -⟩ :=
    (H failedRead t ht).2 g (hg ▸ List.mem_singleton.mpr rfl) hstatus
  rw [hmade, Option.bind_some, hrbus] at hbus
  cases hbus
  exact absurd hchecked.1 (by decide)

end HibanaPico.SensorPanel
