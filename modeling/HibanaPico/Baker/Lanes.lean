import HibanaPico.Baker.Locality

/-!
# Baker — Lanes

A frame to another core goes out on the lane of its call.  A frame to a role on the sender's core
goes out on the lane that role was registered with last: there is one lane for each role and core,
and every port of the role that is opened or polled writes its own over it.

* `firstReceived`: what the ports of a role receive first, polled in a given order.
* `Waiting`: a frame is the next one the ports of its role find.
* `lanes_observed`: what the ports receive of a frame sent either way.
* `lanes_differ`: a role with two lanes receives a frame of the first on the second.
-/

namespace HibanaPico.Baker
open HibanaPico.Transport
open HibanaPico.Sio

/-! ### Polling ports -/

/-- One more turn of a `poll_recv` that has not answered, with its deadline over. -/
def recvTurn : SioStatics × SioRx × RecvPhase → SioStatics × SioRx × RecvPhase
  | (st, rx, .answer answer) => (st, rx, .answer answer)
  | (st, rx, .scan) => recvScan st rx
  | (st, rx, .await) => recvAwait st rx true

/-- A whole `poll_recv`, with no call of the other core in between: its loop finds at most one
frame, and then an empty mailbox, and then waits. -/
def pollRecvWhole (st : SioStatics) (core : Core) (rx : SioRx) :
    Option (SioStatics × SioRx × RecvPhase) :=
  (pollRecv st core rx).map recvTurn^[3]

/-- The first frame that ports of a core receive, polled in turn, and the lane of the port. -/
def firstReceived (st : SioStatics) (core : Core) : List SioRx → Option (U8 × ReceivedFrame)
  | [] => none
  | rx :: rxs =>
      match pollRecvWhole st core rx with
      | none => none
      | some (_, _, .answer (.ready (.ok received))) => some (rx.lane, received)
      | some (st, _, _) => firstReceived st core rxs

/-- Ports of a role, none of which has a frame to hand out again. -/
def PortsOf (role : U8) (rxs : List SioRx) : Prop :=
  ∀ rx ∈ rxs, rx.localRole = role ∧ NothingToRepeat rx

/-- A frame is the next one the ports of its role find on a core. -/
def Waiting (st : SioStatics) (core : Core) (f : DecodedSioFrame) : Prop :=
  ∃ index, bakerRoleStashIndex f.peerRole = some index ∧
    (st.frames (.stash core index) = some f ∨
      st.frames (.stash core index) = none ∧ st.frames (.outbound core.peer) = some f ∧
        f.senderRole ≠ f.peerRole)

/-- The frame of a mailbox, handed out on its lane and stashed on another. -/
theorem recvScan_of_mailbox {st : SioStatics} {rx : SioRx} {index : Fin 3} {f : DecodedSioFrame}
    (hindex : bakerRoleStashIndex f.peerRole = some index) (hrole : f.peerRole = rx.localRole)
    (hempty : st.frames (.stash rx.coreId index) = none)
    (hslot : st.frames (.outbound rx.coreId.peer) = some f) (hne : f.senderRole ≠ f.peerRole) :
    recvScan st rx = if f.lane = rx.lane then
        ({ st with frames := Function.update st.frames (.outbound rx.coreId.peer) none },
          deliver rx f)
      else
        ({ st with
            frames := Function.update (Function.update st.frames (.outbound rx.coreId.peer) none)
              (.stash rx.coreId index) (some f) }, rx, .scan) := by
  have hstash : Function.update st.frames (.outbound rx.coreId.peer) none (.stash rx.coreId index) =
      none := (Function.update_of_ne (by simp) _ _).trans hempty
  unfold recvScan SioStatics.takeMailboxFrame
  rw [hslot]
  dsimp only
  rw [if_neg hne]
  dsimp only [recvTaken]
  by_cases hlane : f.lane = rx.lane
  · rw [if_neg (by simp [hrole, hlane]), if_pos hlane]
  · rw [if_pos (.inr hlane), if_neg hlane]
    simp only [SioStatics.stashFrame, hindex, hstash]

/-- **The loop ends**, with no frame, once the mailbox is empty. -/
theorem recvTurn_of_empty (st : SioStatics) (rx : SioRx)
    (hempty : st.frames (.outbound rx.coreId.peer) = none) :
    ∃ phase, recvTurn (recvTurn (st, rx, .scan)) = (st, rx, phase) ∧
      ∀ received, phase ≠ .answer (.ready (.ok received)) := by
  have htake : st.takeMailboxFrame rx.coreId = (st, .ok none) := by
    unfold SioStatics.takeMailboxFrame
    rw [hempty]
  -- without a deadline the scan answers `Pending`, and with one the wait for it runs out
  by_cases hdeadline : rx.operationalDeadlineTicks = 0
  · have hscan : recvScan st rx = (st, rx, .answer .pending) := by
      simp only [recvScan, htake, hdeadline, ne_eq, not_true_eq_false, if_false]
    exact ⟨.answer .pending, by simp only [recvTurn, hscan], nofun⟩
  · have hscan : recvScan st rx = (st, rx, .await) := by
      simp only [recvScan, htake, ne_eq, hdeadline, not_false_eq_true, if_true]
    have hawait : recvAwait st rx true = (st, rx, .answer (.ready (.error .deadline))) := by
      simp only [recvAwait, htake, if_true]
    exact ⟨.answer (.ready (.error .deadline)), by simp only [recvTurn, hscan, hawait], nofun⟩

theorem recvTurn_answer {answer : RecvAnswer} {st : SioStatics} {rx : SioRx} (n : ℕ) :
    recvTurn^[n] (st, rx, .answer answer) = (st, rx, .answer answer) :=
  Function.iterate_fixed rfl n

/-- **A waiting frame and a `poll_recv` of its role**: handed out on its lane, waiting still on
another. -/
theorem pollRecvWhole_of_waiting {st : SioStatics} {core : Core} {f : DecodedSioFrame} {rx : SioRx}
    (hf : Waiting st core f) (hrole : rx.localRole = f.peerRole) (hrepeat : NothingToRepeat rx) :
    ∃ st' rx' phase, pollRecvWhole st core rx = some (st', rx', phase) ∧
      (rx.lane = f.lane → phase = .answer (.ready (.ok f.received))) ∧
      (rx.lane ≠ f.lane → (∀ r, phase ≠ .answer (.ready (.ok r))) ∧ Waiting st' core f) := by
  obtain ⟨index, hindex, hplace⟩ := hf
  obtain ⟨marked, hmark⟩ : ∃ marked, st.markLocalRoleAttached core rx.localRole rx.lane =
      some marked := by
    rw [SioStatics.markLocalRoleAttached, hrole, hindex]
    exact ⟨_, rfl⟩
  rw [← frames_markLocalRoleAttached hmark] at hplace
  have hrecv : pollRecv st core rx =
      some (recvStash marked (forgetDelivered { rx with coreId := core })) := by
    rw [pollRecv, hmark, Option.map_some,
      @recvAttached_of_nothingToRepeat marked { rx with coreId := core } hrepeat]
  have hkeeps := keeps_forgetDelivered { rx with coreId := core }
  -- all that matters of the port now is its core, its role and its lane
  generalize forgetDelivered { rx with coreId := core } = rx₁ at hrecv hkeeps
  obtain rfl : rx₁.coreId = core := hkeeps.coreId
  have hrole₁ : f.peerRole = rx₁.localRole := hrole.symm.trans hkeeps.localRole.symm
  have hlane₁ : rx₁.lane = rx.lane := hkeeps.lane
  rw [pollRecvWhole, hrecv, Option.map_some, ← hlane₁]
  -- the frame is in the stash slot already, or the scan of the mailbox finds it
  rcases hplace with hslot | ⟨hempty, hslot, hne⟩
  · rw [recvStash_of_stashed hindex hrole₁ hslot]
    by_cases hlane : f.lane = rx₁.lane
    · rw [if_pos hlane]
      refine ⟨_, _, _, congrArg some (recvTurn_answer 3), fun _ => deliver_answer hrole₁, ?_⟩
      exact fun h => absurd hlane.symm h
    · rw [if_neg hlane]
      refine ⟨_, _, _, congrArg some (recvTurn_answer 3), fun h => absurd h.symm hlane, fun _ => ?_⟩
      exact ⟨nofun, index, hindex, .inl hslot⟩
  · rw [recvStash_of_empty fun i hi => by
      rw [← hrole₁, hindex] at hi; exact Option.some.inj hi ▸ hempty]
    have hturns : recvTurn^[3] (marked, rx₁, .scan) = recvTurn (recvTurn (recvScan marked rx₁)) :=
      rfl
    rw [hturns, recvScan_of_mailbox hindex hrole₁ hempty hslot hne]
    by_cases hlane : f.lane = rx₁.lane
    · rw [if_pos hlane]
      refine ⟨_, _, _, congrArg some (recvTurn_answer 2), fun _ => deliver_answer hrole₁, ?_⟩
      exact fun h => absurd hlane.symm h
    · rw [if_neg hlane]
      -- it has gone from the mailbox to the stash slot, and the rest of the loop finds nothing
      have hmailbox : Function.update
          (Function.update marked.frames (.outbound rx₁.coreId.peer) none)
          (.stash rx₁.coreId index) (some f) (.outbound rx₁.coreId.peer) = none := by
        rw [Function.update_of_ne (by simp), Function.update_self]
      obtain ⟨phase, hend, hphase⟩ := recvTurn_of_empty { marked with
        frames := Function.update (Function.update marked.frames (.outbound rx₁.coreId.peer) none)
          (.stash rx₁.coreId index) (some f) } rx₁ hmailbox
      rw [hend]
      refine ⟨_, _, _, rfl, fun h => absurd h.symm hlane, fun _ => ⟨hphase, index, hindex, .inl ?_⟩⟩
      exact Function.update_self _ _ _

/-- **What a role's ports receive of a waiting frame**: the first one polled that is on its lane
receives it. -/
theorem firstReceived_of_waiting {rxs : List SioRx} {st : SioStatics} {core : Core}
    {f : DecodedSioFrame} (hf : Waiting st core f) (hports : PortsOf f.peerRole rxs) :
    firstReceived st core rxs =
      (rxs.find? fun rx => rx.lane = f.lane).map fun rx => (rx.lane, f.received) := by
  induction rxs generalizing st with
  | nil => rfl
  | cons rx rxs ih =>
      obtain ⟨hrole, hrepeat⟩ := hports rx (List.mem_cons_self)
      obtain ⟨st', rx', phase, hpoll, hon, hoff⟩ := pollRecvWhole_of_waiting hf hrole hrepeat
      rw [firstReceived, hpoll, List.find?_cons]
      by_cases hlane : rx.lane = f.lane
      · rw [hon hlane]
        simp [hlane]
      · obtain ⟨hnone, hwaiting⟩ := hoff hlane
        simp only [hlane, decide_false]
        exact ih hwaiting fun rx hrx => hports rx (List.mem_cons_of_mem _ hrx)

/-! ### Sending -/

/-- What the receiver of a send is handed, on a lane. -/
def SioTx.observed (tx : SioTx) (o : Outgoing) (lane : U8) : ReceivedFrame :=
  { header :=
      { sessionId := tx.sessionId, lane, sourceRole := tx.localRole, peerRole := o.targetRole,
        frameLabel := o.frameLabel }
    payload := o.payload }

/-- The first port on a lane that is polled, with what it is handed of a send. -/
def handedOn (tx : SioTx) (o : Outgoing) (lane : U8) (rxs : List SioRx) :
    Option (U8 × ReceivedFrame) :=
  (rxs.find? fun rx => rx.lane = lane).map fun rx => (rx.lane, tx.observed o lane)

variable {st st' : SioStatics} {core : Core} {tx tx' : SioTx} {o : Outgoing}

/-- **A send on the same core**: the frame waits for the target on the lane it is registered
with. -/
theorem waiting_of_sameCore {targetLane : U8}
    (hlane : st.roleLaneOnCore o.targetRole core = some targetLane)
    (hsend : pollSend st core tx o = some (st', tx', .ready (.ok ()))) :
    ∃ f, Waiting st' core f ∧ f.peerRole = o.targetRole ∧ f.lane = targetLane ∧
      f.received = tx.observed o targetLane := by
  obtain ⟨marked, hmark, hattached⟩ := Option.map_eq_some_iff.mp hsend
  rw [sendAttached] at hattached
  split at hattached
  · cases hattached
  rename_i hne
  split at hattached
  · cases hattached
  dsimp only at hattached
  rw [roleLaneOnCore_markLocalRoleAttached hmark hne, hlane] at hattached
  dsimp only [sendStash] at hattached
  split at hattached
  · cases hattached
  rename_i hstash
  cases hattached
  obtain ⟨index, hindex, -, rfl⟩ := stashFrame_ok hstash
  exact ⟨_, ⟨index, hindex, .inl (Function.update_self _ _ _)⟩, rfl, rfl, rfl⟩

/-- **A send to the other core**: the frame waits for the target there, on the lane of the
call. -/
theorem waiting_of_otherCore {index : Fin 3}
    (hindex : bakerRoleStashIndex o.targetRole = some index)
    (hlane : st.roleLaneOnCore o.targetRole core = none)
    (hpending : ∀ p, tx.pending = some p →
      PendingMailboxFrame.new o.targetRole o.frameLabel o.lane o.payload = .ok p)
    (hfirst : st.frames (.stash core.peer index) = none)
    (hsend : pollSend st core tx o = some (st', tx', .ready (.ok ()))) :
    ∃ f, Waiting st' core.peer f ∧ f.peerRole = o.targetRole ∧ f.lane = o.lane ∧
      f.received = tx.observed o o.lane := by
  obtain ⟨marked, hmark, hattached⟩ := Option.map_eq_some_iff.mp hsend
  rw [sendAttached] at hattached
  split at hattached
  · cases hattached
  rename_i hne
  split at hattached
  · cases hattached
  rename_i hfits
  dsimp only at hattached
  rw [roleLaneOnCore_markLocalRoleAttached hmark hne, hlane] at hattached
  dsimp only at hattached
  -- a frame that was kept is the frame of this call
  have hmailbox : sendMailbox marked { tx with coreId := core } o =
      publishPending marked { tx with coreId := core }
        ⟨o.targetRole, o.frameLabel, o.lane, false, ⟨o.payload, Nat.not_lt.mp hfits⟩⟩ := by
    unfold sendMailbox
    cases hp : tx.pending with
    | none => simp only [PendingMailboxFrame.new, dif_neg hfits]
    | some p =>
        have hkept := hpending p hp
        rw [PendingMailboxFrame.new, dif_neg hfits] at hkept
        cases hkept
        rfl
  rw [hmailbox] at hattached
  have hstash := congrFun (frames_markLocalRoleAttached hmark) (.stash core.peer index)
  unfold publishPending SioStatics.publishMailboxFrame at hattached
  dsimp only at hattached
  cases hslot : marked.frames (.outbound core) with
  | some g => rw [hslot] at hattached; cases hattached
  | none =>
      rw [hslot] at hattached
      cases hattached
      refine ⟨⟨tx.sessionId, tx.localRole, o.targetRole, o.frameLabel, o.lane,
        ⟨o.payload, Nat.not_lt.mp hfits⟩⟩, ⟨index, hindex, .inr ⟨?_, ?_, ?_⟩⟩, rfl, rfl, rfl⟩
      · dsimp only
        rw [Function.update_of_ne (by simp), hstash, hfirst]
      · rw [Core.peer_peer]; exact Function.update_self _ _ _
      · exact Ne.symm hne

/-! ### The result -/

/-- The ports of a role receive the same first, of two sends. -/
def SameObserved (role : U8) (st : SioStatics) (core : Core) (st' : SioStatics) (core' : Core) :
    Prop :=
  ∀ rxs, PortsOf role rxs → firstReceived st core rxs = firstReceived st' core' rxs

/-- What the ports of the target receive of one frame, sent to them on their own core and sent to
them on the other. -/
structure LanesObserved (tx : SioTx) (o : Outgoing) (targetLane : U8) (here : SioStatics)
    (core : Core) (there : SioStatics) (core' : Core) : Prop where
  /-- On the other core, the port on the lane of the call. -/
  across : ∀ rxs, PortsOf o.targetRole rxs →
    firstReceived there core' rxs = handedOn tx o o.lane rxs
  /-- On the same core, the port on the lane the target is registered with, and the rest of the
  header and the payload are the same. -/
  within : ∀ rxs, PortsOf o.targetRole rxs →
    firstReceived here core rxs = handedOn tx o targetLane rxs
  agree : SameObserved o.targetRole here core there core' ↔ targetLane = o.lane

/-- **What ports receive of a frame sent either way**: the same but for the lane, which on the
sender's core is the one the target is registered with. -/
theorem lanes_observed {here here' there there' : SioStatics} {core core' : Core}
    {tx tx₁ tx₂ : SioTx} {o : Outgoing} {targetLane : U8} {index : Fin 3}
    (hindex : bakerRoleStashIndex o.targetRole = some index)
    (hhere : here.roleLaneOnCore o.targetRole core = some targetLane)
    (hthere : there.roleLaneOnCore o.targetRole core' = none)
    (hpending : ∀ p, tx.pending = some p →
      PendingMailboxFrame.new o.targetRole o.frameLabel o.lane o.payload = .ok p)
    (hfirst : there.frames (.stash core'.peer index) = none)
    (hsend : pollSend here core tx o = some (here', tx₁, .ready (.ok ())))
    (hsend' : pollSend there core' tx o = some (there', tx₂, .ready (.ok ()))) :
    LanesObserved tx o targetLane here' core there' core'.peer := by
  obtain ⟨f, hf, hrole, hlane, hreceived⟩ := waiting_of_sameCore hhere hsend
  obtain ⟨f', hf', hrole', hlane', hreceived'⟩ :=
    waiting_of_otherCore hindex hthere hpending hfirst hsend'
  have hl : ∀ rxs, PortsOf o.targetRole rxs →
      firstReceived here' core rxs = handedOn tx o targetLane rxs := by
    intro rxs hports
    rw [firstReceived_of_waiting hf (hrole ▸ hports), hlane, hreceived]
    rfl
  have hm : ∀ rxs, PortsOf o.targetRole rxs →
      firstReceived there' core'.peer rxs = handedOn tx o o.lane rxs := by
    intro rxs hports
    rw [firstReceived_of_waiting hf' (hrole' ▸ hports), hlane', hreceived']
    rfl
  refine ⟨hm, hl, fun hsame => ?_, fun heq rxs hports => ?_⟩
  · -- a port on the lane of the call tells the two apart
    have hports : PortsOf o.targetRole [.new o.targetRole tx.sessionId o.lane 0 core] := by
      intro rx hrx
      rw [List.mem_singleton.mp hrx]
      exact ⟨rfl, .inl rfl⟩
    have hone := hsame _ hports
    rw [hl _ hports, hm _ hports] at hone
    by_contra hne
    simp only [handedOn, SioRx.new, List.find?_cons, decide_true, Option.map_some,
      show decide (o.lane = targetLane) = false from decide_eq_false (Ne.symm hne),
      List.find?_nil, Option.map_none, reduceCtorEq] at hone
  · rw [hl rxs hports, hm rxs hports, heq]

/-- Role 0 opened on core 0, and role 1 on a core with a port on each of two lanes. -/
def twoRoles (core : Core) (lane lane' : U8) : List SioAction :=
  [.open .core0 0 { localRole := 0, sessionId := 42, lane := 3 },
    .open core 1 { localRole := 1, sessionId := 42, lane },
    .open core 2 { localRole := 1, sessionId := 42, lane := lane' }]

/-- The statics these opens lead to. -/
def twoRolesOpened (core : Core) (lane lane' : U8) : SioStatics :=
  ((sioMachine.exec .init (twoRoles core lane lane')).map SioState.st).getD .init

/-- The Tx of role 0. -/
def role0Tx : SioTx :=
  { localRole := 0, coreId := .core0, lane := 3, sessionId := 42, pending := none }

/-- A frame to role 1. -/
def toRole1 : Outgoing := { targetRole := 1, frameLabel := 5, lane := 3, payload := [1] }

/-- The Rx of role 1 on a lane. -/
def role1Rx (lane : U8) : SioRx := .new 1 42 lane 0 .core0

/-- A role registered with lane 3 last receives a frame of lane 3 either way. -/
theorem lanes_observed_alike : ∃ here there tx₁ tx₂,
    pollSend (twoRolesOpened .core0 7 3) .core0 role0Tx toRole1 =
      some (here, tx₁, .ready (.ok ())) ∧
    pollSend (twoRolesOpened .core1 7 3) .core0 role0Tx toRole1 =
      some (there, tx₂, .ready (.ok ())) ∧
    LanesObserved role0Tx toRole1 3 here .core0 there .core1 ∧
    SameObserved 1 here .core0 there .core1 := by
  have hsend : (pollSend (twoRolesOpened .core0 7 3) .core0 role0Tx toRole1).map
      (fun sent => sent.2.2) = some (.ready (.ok ())) := by decide +kernel
  have hsend' : (pollSend (twoRolesOpened .core1 7 3) .core0 role0Tx toRole1).map
      (fun sent => sent.2.2) = some (.ready (.ok ())) := by decide +kernel
  obtain ⟨⟨here, tx₁, _⟩, hsend, rfl⟩ := Option.map_eq_some_iff.mp hsend
  obtain ⟨⟨there, tx₂, _⟩, hsend', rfl⟩ := Option.map_eq_some_iff.mp hsend'
  have hindex : bakerRoleStashIndex toRole1.targetRole = some 1 := rfl
  have hobserved : LanesObserved role0Tx toRole1 3 here .core0 there .core1 :=
    lanes_observed hindex (by decide +kernel) (by decide +kernel) (fun p hp => by cases hp)
      (by decide +kernel) hsend hsend'
  exact ⟨here, there, tx₁, tx₂, hsend, hsend', hobserved, hobserved.agree.mpr rfl⟩

/-- **A role with two lanes**, opened on lane 3 and then on lane 7, receives a frame of lane 3 on
lane 7 when it is sent on its own core, and on lane 3 when it comes from the other. -/
theorem lanes_differ : ∃ here there tx₁ tx₂,
    pollSend (twoRolesOpened .core0 3 7) .core0 role0Tx toRole1 =
      some (here, tx₁, .ready (.ok ())) ∧
    pollSend (twoRolesOpened .core1 3 7) .core0 role0Tx toRole1 =
      some (there, tx₂, .ready (.ok ())) ∧
    firstReceived here .core0 [role1Rx 3, role1Rx 7] = some (7, ⟨⟨42, 7, 0, 1, 5⟩, [1]⟩) ∧
    firstReceived there .core1 [role1Rx 3, role1Rx 7] = some (3, ⟨⟨42, 3, 0, 1, 5⟩, [1]⟩) ∧
    ¬ SameObserved 1 here .core0 there .core1 := by
  have hsend : (pollSend (twoRolesOpened .core0 3 7) .core0 role0Tx toRole1).map
      (fun sent => (sent.2.2, firstReceived sent.1 .core0 [role1Rx 3, role1Rx 7])) =
      some (.ready (.ok ()), some (7, ⟨⟨42, 7, 0, 1, 5⟩, [1]⟩)) := by decide +kernel
  have hsend' : (pollSend (twoRolesOpened .core1 3 7) .core0 role0Tx toRole1).map
      (fun sent => (sent.2.2, firstReceived sent.1 .core1 [role1Rx 3, role1Rx 7])) =
      some (.ready (.ok ()), some (3, ⟨⟨42, 3, 0, 1, 5⟩, [1]⟩)) := by decide +kernel
  obtain ⟨⟨here, tx₁, answer⟩, hsend, hhere⟩ := Option.map_eq_some_iff.mp hsend
  obtain ⟨⟨there, tx₂, answer'⟩, hsend', hthere⟩ := Option.map_eq_some_iff.mp hsend'
  obtain ⟨rfl, hhere⟩ := Prod.mk.inj hhere
  obtain ⟨rfl, hthere⟩ := Prod.mk.inj hthere
  refine ⟨here, there, tx₁, tx₂, hsend, hsend', hhere, hthere, fun hsame => ?_⟩
  have hports : PortsOf 1 [role1Rx 3, role1Rx 7] := by
    intro rx hrx
    rcases List.mem_cons.mp hrx with rfl | hrx
    · exact ⟨rfl, .inl rfl⟩
    · rw [List.mem_singleton.mp hrx]
      exact ⟨rfl, .inl rfl⟩
  have hone := hsame _ hports
  rw [hhere, hthere] at hone
  cases hone

end HibanaPico.Baker
