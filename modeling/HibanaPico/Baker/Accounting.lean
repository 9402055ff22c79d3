import HibanaPico.Baker.Requeue

/-!
# Baker — Accounting

Every frame that a send put in a place is delivered, or in a place, or was discarded by a
`poll_recv` that answered `Capacity` because the stash slot of the frame's role was full.  A frame
is handed out again only after a requeue, once for each.

* `Accounted`: the ledger balances with what the places hold.
* `SioInv`: what the carrier and its ledger agree on in every state of every run.
* `sio_accounted`: every run within the roles of the board is accounted for.
* `sio_discards`: a full stash slot does lose a frame.
-/

namespace HibanaPico.Baker
open HibanaPico.Support
open HibanaPico.Transport
open HibanaPico.Sio

/-- The ledger balances with what the places hold. -/
structure Accounted (l : Ledger) (frames : Frames) : Prop where
  /-- What entered was delivered, is held, or was discarded, each frame in one of these ways. -/
  balance : (↑(l.entered.map fun e => e.2.received) : Multiset ReceivedFrame) =
    ↑(l.delivered.map Delivery.received) + (Slots.held frames).map DecodedSioFrame.received +
      ↑(l.discarded.map fun d => d.frame.received)
  removed : l.removed = []
  entered : ∀ e ∈ l.entered, e.1.Admits e.2.peerRole
  /-- A frame is delivered to a port of its role and lane. -/
  delivered : ∀ d ∈ l.delivered, d.received.header.peerRole = d.role ∧
    d.received.header.lane = d.lane
  /-- A delivery with no frame leaving a place repeats what the port was delivered, was handed last
  and has requeued since. -/
  repeated : ∀ r ∈ l.repeated, r.requeued = some r.delivery ∧ r.delivery ∈ l.delivered
  discarded : ∀ d ∈ l.discarded, d.error = .capacity ∧ d.blocking.isSome

theorem accounted_init : Accounted .init SioStatics.init.frames where
  balance := by
    have hempty : Slots.held SioStatics.init.frames = 0 := rfl
    rw [hempty]
    rfl
  removed := rfl
  entered _ h := by cases h
  delivered _ h := by cases h
  repeated _ h := by cases h
  discarded _ h := by cases h

variable {l : Ledger} {before after : SioStatics}

/-! ### Calls other than `poll_recv` -/

theorem noteCall_of_same (h : after.frames = before.frames) : l.noteCall before after = l := by
  simp [Ledger.noteCall, h]

theorem noteCall_of_fill {p : Place} {f : DecodedSioFrame} (hempty : before.frames p = none)
    (h : after.frames = Function.update before.frames p (some f)) :
    l.noteCall before after = { l with entered := l.entered ++ [(p, f)] } := by
  rw [Ledger.noteCall, h, Slots.appeared_fill Place.nodup_all (Place.mem_all p) hempty,
    Slots.vanished_fill Place.nodup_all (Place.mem_all p) hempty, List.append_nil]

theorem Accounted.fill (hl : Accounted l before.frames) {p : Place} {f : DecodedSioFrame}
    (hempty : before.frames p = none) (hadmits : p.Admits f.peerRole) :
    Accounted { l with entered := l.entered ++ [(p, f)] }
      (Function.update before.frames p (some f)) where
  balance := by
    rw [Slots.held_fill hempty, List.map_append, ← Multiset.coe_add, hl.balance, Multiset.map_add]
    simp only [List.map_cons, List.map_nil, Multiset.coe_singleton, Multiset.map_singleton]
    abel
  removed := hl.removed
  entered e he := by
    rcases List.mem_append.mp he with he | he
    · exact hl.entered e he
    · obtain rfl := List.mem_singleton.mp he
      exact hadmits
  delivered := hl.delivered
  repeated := hl.repeated
  discarded := hl.discarded

/-- Noting a completed send changes nothing in the balance. -/
theorem Accounted.complete {frames : Frames} (hl : Accounted l frames) (c : List CompletedSend) :
    Accounted { l with completed := c } frames :=
  ⟨hl.balance, hl.removed, hl.entered, hl.delivered, hl.repeated, hl.discarded⟩

/-- Nor does noting where an Rx is at work. -/
theorem Accounted.noteReceiver {frames : Frames} (hl : Accounted l frames) (rx : SioRx) :
    Accounted (l.noteReceiver rx) frames :=
  ⟨hl.balance, hl.removed, hl.entered, hl.delivered, hl.repeated, hl.discarded⟩

/-- Nor does noting a requeue. -/
theorem Accounted.noteRequeue {frames : Frames} (hl : Accounted l frames) (port : ℕ) :
    Accounted (l.noteRequeue port) frames :=
  ⟨hl.balance, hl.removed, hl.entered, hl.delivered, hl.repeated, hl.discarded⟩

/-- **A `poll_send`** keeps the accounts. -/
theorem Accounted.noteSend (hl : Accounted l before.frames) {marked : SioStatics} {tx tx' : SioTx}
    {o : Outgoing} {answer : SendAnswer} (hmarked : marked.frames = before.frames)
    (h : SendStep marked tx o after.frames tx' answer) :
    Accounted (l.noteSend before after tx' o answer) after.frames := by
  have hsame : after.frames = before.frames → Accounted (l.noteCall before after) after.frames :=
    fun e => by rw [noteCall_of_same e, e]; exact hl
  generalize hafter : after.frames = frames at h
  rw [← hafter]
  cases h with
  | refused _ => exact hsame (hafter.trans hmarked)
  | kept _ _ => exact hsame (hafter.trans hmarked)
  | @stashed index f _ hempty hindex _ hsent =>
      rw [hmarked] at hafter hempty
      have hpeer : f.peerRole = o.targetRole := congrArg CompletedSend.targetRole hsent
      have hadmits : (Place.stash tx.coreId index).Admits f.peerRole := by rw [hpeer]; exact hindex
      have hfill := hl.fill hempty hadmits
      rw [← noteCall_of_fill hempty hafter, ← hafter] at hfill
      exact hfill.complete _
  | @published pending _ hempty _ _ =>
      rw [hmarked] at hafter hempty
      have hadmits : (Place.outbound tx.coreId).Admits
          (pending.frame tx.sessionId tx.localRole).peerRole := trivial
      have hfill := hl.fill hempty hadmits
      rw [← noteCall_of_fill hempty hafter, ← hafter] at hfill
      exact hfill.complete _

/-! ### `poll_recv` -/

/-- The ledger remembers the frame a port has in hand: it was delivered, handed last, and, if it is
to be handed out again, requeued since. -/
structure Remembers (l : Ledger) (port : ℕ) (rx : SioRx) : Prop where
  delivered : ∀ f again, rx.hand = some (f, again) →
    (⟨port, rx.localRole, rx.lane, f⟩ : Delivery) ∈ l.delivered
  handed : ∀ f again, rx.hand = some (f, again) →
    l.handed port = some ⟨port, rx.localRole, rx.lane, f⟩
  requeued : ∀ f, rx.hand = some (f, true) →
    l.requeued port = some ⟨port, rx.localRole, rx.lane, f⟩

theorem Remembers.of_hand_none {port : ℕ} {rx : SioRx} (h : rx.hand = none) :
    Remembers l port rx where
  delivered f again hf := by rw [h] at hf; cases hf
  handed f again hf := by rw [h] at hf; cases hf
  requeued f hf := by rw [h] at hf; cases hf

theorem Remembers.keeps {port : ℕ} {rx rx' : SioRx} (h : Remembers l port rx)
    (hkeeps : Keeps rx rx') : Remembers l port rx' := by
  rcases hkeeps.hand with hhand | hnone
  · refine ⟨fun f again hf => ?_, fun f again hf => ?_, fun f hf => ?_⟩
    all_goals
      rw [hhand] at hf
      rw [hkeeps.localRole, hkeeps.lane]
    · exact h.delivered f again hf
    · exact h.handed f again hf
    · exact h.requeued f hf
  · exact .of_hand_none hnone

/-- A note about one port: the others are remembered as before. -/
structure NotesOnly (l l' : Ledger) (port : ℕ) : Prop where
  delivered : l.delivered ⊆ l'.delivered
  handed : ∀ p, p ≠ port → l'.handed p = l.handed p
  requeued : ∀ p, p ≠ port → l'.requeued p = l.requeued p

theorem NotesOnly.refl (l : Ledger) (port : ℕ) : NotesOnly l l port :=
  ⟨List.Subset.refl _, fun _ _ => rfl, fun _ _ => rfl⟩

theorem notesOnly_noteDelivered (l : Ledger) (d : Delivery) :
    NotesOnly l (l.noteDelivered d) d.port :=
  ⟨List.subset_append_left _ _, fun _ hp => Function.update_of_ne hp _ _,
    fun _ hp => Function.update_of_ne hp _ _⟩

theorem notesOnly_noteRepeated (l : Ledger) (d : Delivery) :
    NotesOnly l (l.noteRepeated d) d.port :=
  ⟨List.Subset.refl _, fun _ hp => Function.update_of_ne hp _ _,
    fun _ hp => Function.update_of_ne hp _ _⟩

theorem notesOnly_noteRequeue (l : Ledger) (port : ℕ) : NotesOnly l (l.noteRequeue port) port :=
  ⟨List.Subset.refl _, fun _ _ => rfl, fun _ hp => Function.update_of_ne hp _ _⟩

theorem Remembers.elsewhere {l' : Ledger} {port p : ℕ} {rx : SioRx} (h : Remembers l p rx)
    (hnotes : NotesOnly l l' port) (hp : p ≠ port) : Remembers l' p rx where
  delivered f again hf := hnotes.delivered (h.delivered f again hf)
  handed f again hf := (hnotes.handed p hp).trans (h.handed f again hf)
  requeued f hf := (hnotes.requeued p hp).trans (h.requeued f hf)

/-- Notes that say the same of the ports' frames. -/
theorem Remembers.same {l' : Ledger} {port : ℕ} {rx : SioRx} (h : Remembers l port rx)
    (hdelivered : l'.delivered = l.delivered) (hhanded : l'.handed = l.handed)
    (hrequeued : l'.requeued = l.requeued) : Remembers l' port rx where
  delivered f again hf := hdelivered ▸ h.delivered f again hf
  handed f again hf := (congrFun hhanded port).trans (h.handed f again hf)
  requeued f hf := (congrFun hrequeued port).trans (h.requeued f hf)

/-- A requeue is noted of what was handed last, which is what the port has in hand. -/
theorem Remembers.noteRequeue {port : ℕ} {rx : SioRx} (h : Remembers l port rx) :
    Remembers (l.noteRequeue port) port (requeue rx) := by
  have hbefore : ∀ f again, (requeue rx).hand = some (f, again) → ∃ again',
      rx.hand = some (f, again') := by
    intro f again hf
    rw [hand_requeue] at hf
    obtain ⟨⟨g, again'⟩, hg, hf⟩ := Option.map_eq_some_iff.mp hf
    exact ⟨again', (Prod.mk.inj hf).1 ▸ hg⟩
  refine ⟨fun f again hf => ?_, fun f again hf => ?_, fun f hf => ?_⟩
  all_goals obtain ⟨again', hg⟩ := hbefore f _ hf
  · exact h.delivered f again' hg
  · exact h.handed f again' hg
  · exact (Function.update_self _ _ _).trans (h.handed f again' hg)

/-- A port that was just handed a frame, and of which nothing is requeued. -/
theorem remembers_handed {port : ℕ} {rx : SioRx} {f : ReceivedFrame}
    (hhand : rx.hand = some (f, false))
    (hdelivered : (⟨port, rx.localRole, rx.lane, f⟩ : Delivery) ∈ l.delivered)
    (hhanded : l.handed port = some ⟨port, rx.localRole, rx.lane, f⟩) : Remembers l port rx where
  delivered g again hg := by
    obtain ⟨rfl, -⟩ := Prod.mk.inj (Option.some.inj (hhand.symm.trans hg))
    exact hdelivered
  handed g again hg := by
    obtain ⟨rfl, -⟩ := Prod.mk.inj (Option.some.inj (hhand.symm.trans hg))
    exact hhanded
  requeued g hg := by
    obtain ⟨-, h⟩ := Prod.mk.inj (Option.some.inj (hhand.symm.trans hg))
    cases h

/-- Only the places count in what is noted. -/
theorem noteRecv_congr {before' : SioStatics} (h : before'.frames = before.frames) (port : ℕ)
    (rx : SioRx) (phase : RecvPhase) :
    l.noteRecv before after port rx phase = l.noteRecv before' after port rx phase := by
  simp only [Ledger.noteRecv, SioStatics.blocking, h]

theorem vanished_of_clear {p : Place} {f : DecodedSioFrame} (hslot : before.frames p = some f)
    (h : after.frames = Function.update before.frames p none) :
    Slots.vanished Place.all before.frames after.frames = [(p, f)] := by
  rw [h, Slots.vanished_clear Place.nodup_all (Place.mem_all p) hslot]

/-- A frame that left its place, delivered. -/
theorem Accounted.deliver (hl : Accounted l before.frames) {p : Place} {f : DecodedSioFrame}
    (hslot : before.frames p = some f) {port : ℕ} {role lane : U8} (hrole : f.peerRole = role)
    (hlane : f.lane = lane) :
    Accounted (l.noteDelivered ⟨port, role, lane, f.received⟩)
      (Function.update before.frames p none) where
  balance := by
    refine hl.balance.trans ?_
    rw [← Slots.held_clear hslot, Ledger.noteDelivered, List.map_append, ← Multiset.coe_add,
      Multiset.map_add]
    simp only [List.map_cons, List.map_nil, Multiset.coe_singleton, Multiset.map_singleton]
    abel
  removed := hl.removed
  entered := hl.entered
  delivered d hd := by
    rcases List.mem_append.mp hd with hd | hd
    · exact hl.delivered d hd
    · obtain rfl := List.mem_singleton.mp hd
      exact ⟨hrole, hlane⟩
  repeated r hr := ⟨(hl.repeated r hr).1, List.mem_append_left _ (hl.repeated r hr).2⟩
  discarded := hl.discarded

/-- A frame handed out again. -/
theorem Accounted.again {frames : Frames} (hl : Accounted l frames) {d : Delivery}
    (hrequeued : l.requeued d.port = some d) (hdelivered : d ∈ l.delivered) :
    Accounted (l.noteRepeated d) frames where
  balance := hl.balance
  removed := hl.removed
  entered := hl.entered
  delivered := hl.delivered
  repeated r hr := by
    rcases List.mem_append.mp hr with hr | hr
    · exact hl.repeated r hr
    · obtain rfl := List.mem_singleton.mp hr
      exact ⟨hrequeued, hdelivered⟩
  discarded := hl.discarded

/-- A frame that left its place, discarded with its role's stash slot full. -/
theorem Accounted.discard (hl : Accounted l before.frames) {p : Place} {f : DecodedSioFrame}
    (hslot : before.frames p = some f) {blocking : Option DecodedSioFrame}
    (hblocking : blocking.isSome) :
    Accounted { l with discarded := l.discarded ++ [⟨f, .capacity, blocking⟩] }
      (Function.update before.frames p none) where
  balance := by
    rw [hl.balance, ← Slots.held_clear hslot, List.map_append, ← Multiset.coe_add,
      Multiset.map_add]
    simp only [List.map_cons, List.map_nil, Multiset.coe_singleton, Multiset.map_singleton]
    abel
  removed := hl.removed
  entered := hl.entered
  delivered := hl.delivered
  repeated := hl.repeated
  discarded d hd := by
    rcases List.mem_append.mp hd with hd | hd
    · exact hl.discarded d hd
    · obtain rfl := List.mem_singleton.mp hd
      exact ⟨rfl, hblocking⟩

/-- **A part of a `poll_recv`** keeps the accounts, and the ledger remembers what the Rx does. -/
theorem Accounted.noteRecv (hl : Accounted l before.frames) {port : ℕ} {rx rx' : SioRx}
    {phase : RecvPhase} (hrx : Remembers l port rx)
    (h : RecvStep before rx after.frames rx' phase) :
    Accounted (l.noteRecv before after port rx' phase) after.frames ∧
      Remembers (l.noteRecv before after port rx' phase) port rx' ∧
      NotesOnly l (l.noteRecv before after port rx' phase) port := by
  generalize hafter : after.frames = frames at h
  rw [← hafter]
  cases h with
  | quiet hkeeps hquiet =>
      have hnote : l.noteRecv before after port rx' phase = l := by
        unfold Ledger.noteRecv
        split
        · exact hquiet.elim
        · rw [hafter, Slots.vanished_self, List.map_nil, List.append_nil]
        · rfl
      rw [hnote, hafter]
      exact ⟨hl, hrx.keeps hkeeps, .refl l port⟩
  | @repeated _ f hlocalRole hrxlane _ hagain hhand =>
      have hnote : l.noteRecv before after port rx' (.answer (.ready (.ok f))) =
          l.noteRepeated ⟨port, rx'.localRole, rx'.lane, f⟩ := by
        simp only [Ledger.noteRecv, hafter, Slots.vanished_self, if_true]
      have hdelivered := hrx.delivered f true hagain
      have hrequeued := hrx.requeued f hagain
      rw [← hlocalRole, ← hrxlane] at hdelivered hrequeued
      rw [hnote, hafter]
      exact ⟨hl.again hrequeued hdelivered,
        remembers_handed hhand hdelivered (Function.update_self _ _ _),
        notesOnly_noteRepeated l _⟩
  | @delivered p f _ hslot hrole hlane hlocalRole hrxlane _ hhand =>
      have hnote : l.noteRecv before after port rx' (.answer (.ready (.ok f.received))) =
          l.noteDelivered ⟨port, rx'.localRole, rx'.lane, f.received⟩ := by
        simp only [Ledger.noteRecv, vanished_of_clear hslot hafter]
        rfl
      rw [hnote, hafter]
      exact ⟨hl.deliver hslot (hrole.trans hlocalRole.symm) (hlane.trans hrxlane.symm),
        remembers_handed hhand (List.mem_append_right _ (List.mem_singleton_self _))
          (Function.update_self _ _ _),
        notesOnly_noteDelivered l _⟩
  | @moved p q f hslot hempty hadmits =>
      refine ⟨⟨?_, hl.removed, hl.entered, hl.delivered, hl.repeated, hl.discarded⟩, hrx,
        .refl l port⟩
      -- from the mailbox to a stash slot: the places together hold the same
      rw [hafter, Slots.held_move hslot hempty]
      exact hl.balance
  | @discarded p f hslot hblocking =>
      have hnote : l.noteRecv before after port rx (.answer (.ready (.error .capacity))) =
          { l with discarded := l.discarded ++
              [⟨f, .capacity, before.blocking rx.coreId f⟩] } := by
        simp only [Ledger.noteRecv, vanished_of_clear hslot hafter, List.map_cons, List.map_nil]
      rw [hnote, hafter]
      exact ⟨hl.discard hslot hblocking, hrx.same rfl rfl rfl,
        ⟨List.Subset.refl _, fun _ _ => rfl, fun _ _ => rfl⟩⟩

/-! ### The invariant -/

/-- What the carrier, its ports and its ledger agree on. -/
structure SioInv (s : SioState) : Prop where
  frames : ∀ p f, s.st.frames p = some f → FrameOk p f
  txs : ∀ port tx, s.txs port = some tx → ∀ p, tx.pending = some p → PendingOk tx.localRole p
  rxs : RxInv s
  remembers : ∀ port rx, s.rxs port = some rx → Remembers s.ledger port rx
  accounted : Accounted s.ledger s.st.frames

theorem sioInv_init : SioInv .init where
  frames _ _ h := by cases h
  txs _ _ h := by cases h
  rxs := rxInv_init
  remembers _ _ h := by cases h
  accounted := accounted_init

/-- A property of every port, after one port changed. -/
theorem forall_update {α : Type} {P : ℕ → α → Prop} {ports : ℕ → Option α}
    (h : ∀ port x, ports port = some x → P port x) {port : ℕ} {x : α} (hx : P port x) :
    ∀ port' x', Function.update ports port (some x) port' = some x' → P port' x' := by
  intro port' x' hx'
  by_cases hp : port' = port
  · subst hp
    rw [Function.update_self] at hx'
    exact Option.some.inj hx' ▸ hx
  · rw [Function.update_of_ne hp] at hx'
    exact h port' x' hx'

/-- What the ledger remembers of the ports, after a note about one port, whose Rx has changed. -/
theorem remembers_update {l' : Ledger} {rxs : ℕ → Option SioRx} {port : ℕ} {rx : SioRx}
    (hothers : ∀ p x, p ≠ port → rxs p = some x → Remembers l' p x) (hport : Remembers l' port rx) :
    ∀ p x, Function.update rxs port (some rx) p = some x → Remembers l' p x := by
  intro p x hx
  by_cases hp : p = port
  · subst hp
    rw [Function.update_self] at hx
    exact Option.some.inj hx ▸ hport
  · rw [Function.update_of_ne hp] at hx
    exact hothers p x hp hx

theorem framesOk_fill {frames : Frames} (h : ∀ p f, frames p = some f → FrameOk p f) {p : Place}
    {f : DecodedSioFrame} (hf : FrameOk p f) :
    ∀ p' f', Function.update frames p (some f) p' = some f' → FrameOk p' f' := by
  intro p' f' hf'
  by_cases hp : p' = p
  · subst hp
    rw [Function.update_self] at hf'
    exact Option.some.inj hf' ▸ hf
  · rw [Function.update_of_ne hp] at hf'
    exact h p' f' hf'

theorem framesOk_clear {frames : Frames} (h : ∀ p f, frames p = some f → FrameOk p f) (p : Place) :
    ∀ p' f', Function.update frames p none p' = some f' → FrameOk p' f' := by
  intro p' f' hf'
  by_cases hp : p' = p
  · subst hp
    rw [Function.update_self] at hf'
    cases hf'
  · rw [Function.update_of_ne hp] at hf'
    exact h p' f' hf'

theorem SendStep.framesOk {st : SioStatics} {tx tx' : SioTx} {o : Outgoing} {frames : Frames}
    {answer : SendAnswer} (h : SendStep st tx o frames tx' answer)
    (hframes : ∀ p f, st.frames p = some f → FrameOk p f) (hrole : o.targetRole.toNat < 3) :
    ∀ p f, frames p = some f → FrameOk p f := by
  cases h with
  | refused _ => exact hframes
  | kept _ _ => exact hframes
  | @stashed index f _ _ hindex hne hsent =>
      have hpeer : f.peerRole = o.targetRole := congrArg CompletedSend.targetRole hsent
      have hsender : f.senderRole = tx.localRole := congrArg CompletedSend.senderRole hsent
      refine framesOk_fill hframes ⟨?_, ?_, ?_⟩
      · rw [hpeer, hsender]; exact Ne.symm hne
      · rw [hpeer]; exact hrole
      · rw [hpeer]; exact hindex
  | published _ _ hok _ =>
      exact framesOk_fill hframes ⟨Ne.symm hok.peerRole_ne, hok.peerRole_lt, trivial⟩

theorem SendStep.txOk {st : SioStatics} {tx tx' : SioTx} {o : Outgoing} {frames : Frames}
    {answer : SendAnswer} (h : SendStep st tx o frames tx' answer)
    (htx : ∀ p, tx.pending = some p → PendingOk tx.localRole p) :
    ∀ p, tx'.pending = some p → PendingOk tx'.localRole p := by
  cases h with
  | refused _ | stashed _ _ _ _ _ => exact htx
  | published _ _ _ _ => exact fun _ h => by cases h
  | kept hok _ => exact fun _ h => Option.some.inj h ▸ hok

theorem RecvStep.framesOk {st : SioStatics} {rx rx' : SioRx} {frames : Frames} {phase : RecvPhase}
    (h : RecvStep st rx frames rx' phase)
    (hframes : ∀ p f, st.frames p = some f → FrameOk p f) :
    ∀ p f, frames p = some f → FrameOk p f := by
  cases h with
  | quiet _ _ | repeated _ _ => exact hframes
  | delivered _ _ _ _ _ _ | discarded _ _ => exact framesOk_clear hframes _
  | moved hslot hempty hadmits =>
      have hf := hframes _ _ hslot
      exact framesOk_fill (framesOk_clear hframes _)
        ⟨hf.senderRole_ne, hf.peerRole_lt, hadmits⟩

/-- What a call that touches no place leaves behind. -/
theorem SioInv.opened {s : SioState} (h : SioInv s) {port : ℕ} {st : SioStatics} {tx : SioTx}
    {rx : SioRx} (hst : st.frames = s.st.frames) (htx : tx.pending = none) (hrx : rx.Empty)
    (hrxs : RxInv (s.opened port st tx rx)) : SioInv (s.opened port st tx rx) where
  frames := by rw [SioState.opened]; dsimp only; rw [hst]; exact h.frames
  txs := forall_update h.txs fun _ hp => by rw [htx] at hp; cases hp
  rxs := hrxs
  remembers := by
    rw [SioState.opened]
    dsimp only
    rw [noteCall_of_same hst]
    exact forall_update (P := fun p x => Remembers (s.ledger.noteReceiver rx) p x)
      (fun p x hx => (h.remembers p x hx).same rfl rfl rfl) (.of_hand_none hrx.hand_eq)
  accounted := by
    rw [SioState.opened]
    dsimp only
    rw [noteCall_of_same hst, hst]
    exact h.accounted.noteReceiver rx

theorem SioInv.received {s : SioState} (h : SioInv s) {core : Core} {port : ℕ} {st : SioStatics}
    {rx rx₁ rx' : SioRx} {phase : RecvPhase} {marked : SioStatics}
    (hmarked : marked.frames = s.st.frames) (hport : s.rxs port = some rx)
    (hrx₁ : Remembers s.ledger port rx → Remembers s.ledger port rx₁)
    (hstep : RecvStep marked rx₁ st.frames rx' phase)
    (hrxs : RxInv (s.received core port st rx' phase)) :
    SioInv (s.received core port st rx' phase) := by
  have hframes : ∀ p f, marked.frames p = some f → FrameOk p f := by
    rw [hmarked]; exact h.frames
  have haccounted : Accounted s.ledger marked.frames := by rw [hmarked]; exact h.accounted
  obtain ⟨hacc, hrem, hnotes⟩ := haccounted.noteRecv (hrx₁ (h.remembers port rx hport)) hstep
  rw [← noteRecv_congr hmarked] at hacc hrem hnotes
  refine ⟨hstep.framesOk hframes, h.txs, hrxs, ?_, hacc.noteReceiver rx'⟩
  exact remembers_update
    (fun p x hp hx => ((h.remembers p x hx).elsewhere hnotes hp).same rfl rfl rfl)
    (hrem.same rfl rfl rfl)

/-- What a `poll_send` notes of the ports' frames: nothing. -/
theorem notes_noteSend (tx : SioTx) (o : Outgoing) (answer : SendAnswer) :
    (l.noteSend before after tx o answer).delivered = l.delivered ∧
      (l.noteSend before after tx o answer).handed = l.handed ∧
      (l.noteSend before after tx o answer).requeued = l.requeued := by
  unfold Ledger.noteSend
  split <;> exact ⟨rfl, rfl, rfl⟩

theorem SioInv.sent {s : SioState} (h : SioInv s) {port : ℕ} {o : Outgoing} {core : Core}
    {tx tx' : SioTx} {st : SioStatics} {answer : SendAnswer} (hport : s.txs port = some tx)
    (hrole : o.targetRole.toNat < 3) (hsend : pollSend s.st core tx o = some (st, tx', answer))
    (hrxs : RxInv (s.sent port o st tx' answer)) : SioInv (s.sent port o st tx' answer) := by
  obtain ⟨marked, hmark, hstep⟩ := sendStep_pollSend hrole (h.txs port tx hport) hsend
  have hmarked := frames_markLocalRoleAttached hmark
  have hframes : ∀ p f, marked.frames p = some f → FrameOk p f := by
    rw [hmarked]; exact h.frames
  obtain ⟨hdelivered, hhanded, hrequeued⟩ :=
    @notes_noteSend s.ledger s.st st tx' o answer
  exact ⟨hstep.framesOk hframes hrole, forall_update h.txs (hstep.txOk (h.txs port tx hport)), hrxs,
    fun p rx hrx => (h.remembers p rx hrx).same hdelivered hhanded hrequeued,
    h.accounted.noteSend hmarked hstep⟩

theorem SioInv.requeued {s : SioState} (h : SioInv s) {port : ℕ} {rx : SioRx}
    (hport : s.rxs port = some rx) (hrxs : RxInv (s.requeued port (requeue rx))) :
    SioInv (s.requeued port (requeue rx)) := by
  refine ⟨h.frames, h.txs, hrxs, ?_, h.accounted.noteRequeue port⟩
  exact remembers_update
    (fun p x hp hx => (h.remembers p x hx).elsewhere (notesOnly_noteRequeue _ port) hp)
    (h.remembers port rx hport).noteRequeue

/-- **The step lemma.** -/
theorem sioInv_step (s : SioState) (a : SioAction) (t : SioState) (h : SioInv s)
    (hroles : WithinRoles s a) (hstep : sioMachine.next s a = some t) : SioInv t := by
  have hrxs : RxInv t := (reads_rxEvents_step h.rxs hstep 0).2
  cases sioStep_cases hstep with
  | opened _ _ _ hmark =>
      exact h.opened (frames_markLocalRoleAttached hmark) rfl ⟨rfl, rfl⟩ hrxs
  | openedXor => exact h.opened rfl rfl ⟨rfl, rfl⟩ hrxs
  | sent _ htx hsend => exact h.sent htx hroles hsend hrxs
  | @cancelled core port tx _ htx =>
      rw [cancelSend_eq (h.txs port tx htx)] at hrxs ⊢
      refine ⟨h.frames, forall_update h.txs (fun _ hp => by cases hp), hrxs, ?_, ?_⟩
      all_goals
        rw [SioState.cancelled]
        dsimp only
        rw [noteCall_of_same rfl]
      · exact h.remembers
      · exact h.accounted
  | @received core port rx st rx' phase _ hrx hrecv =>
      obtain ⟨marked, hmark, hrecv⟩ := Option.map_eq_some_iff.mp hrecv
      have hmarked := frames_markLocalRoleAttached hmark
      have hframes : ∀ p f, marked.frames p = some f → FrameOk p f := by
        rw [hmarked]; exact h.frames
      have hsettled : ({ rx with coreId := core } : SioRx).Settled := h.rxs.settled port rx hrx
      obtain ⟨rx₁, hkeeps, hattached⟩ := recvStep_recvAttached hframes hsettled
      rw [hrecv] at hattached
      exact h.received hmarked hrx
        (fun hrx => @Remembers.keeps s.ledger port { rx with coreId := core } rx₁
          ⟨hrx.delivered, hrx.handed, hrx.requeued⟩ hkeeps)
        hattached hrxs
  | @scanned core timerReady port rx hbusy hrx =>
      obtain ⟨⟨rx₀, hrx₀, hempty⟩, -⟩ := h.rxs.looping core port false hbusy
      obtain rfl : rx = rx₀ := Option.some.inj (hrx.symm.trans hrx₀)
      exact h.received rfl hrx id (recvStep_recvScan h.frames hempty) hrxs
  | @awaited core timerReady port rx hbusy hrx =>
      obtain ⟨⟨rx₀, hrx₀, hempty⟩, -⟩ := h.rxs.looping core port true hbusy
      obtain rfl : rx = rx₀ := Option.some.inj (hrx.symm.trans hrx₀)
      exact h.received rfl hrx id (recvStep_recvAwait h.frames hempty timerReady) hrxs
  | requeued _ hrx => exact h.requeued hrx hrxs

theorem sioInv_exec {as : List SioAction} {s : SioState}
    (hrun : sioMachine.exec .init as = some s) (hroles : sioMachine.Along WithinRoles .init as) :
    SioInv s := Machine.exec_invariant sioInv_step sioInv_init hroles hrun

/-! ### The result -/

/-- **Every frame is accounted for**, in every run of the two cores within the roles of the
board. -/
theorem sio_accounted (as : List SioAction) (s : SioState)
    (hrun : sioMachine.exec .init as = some s) (hroles : sioMachine.Along WithinRoles .init as) :
    Accounted s.ledger s.st.frames := (sioInv_exec hrun hroles).accounted

/-- What entered was delivered or is held. -/
def NothingLost (s : SioState) : Prop :=
  (↑(s.ledger.entered.map fun e => e.2.received) : Multiset ReceivedFrame) =
    ↑(s.ledger.delivered.map Delivery.received) +
      (Slots.held s.st.frames).map DecodedSioFrame.received

/-- Role 0 on core 0; roles 2 and 1 on core 1. -/
def threePorts : List SioAction :=
  [.open .core0 0 { localRole := 0, sessionId := 42, lane := 1 },
    .open .core1 1 { localRole := 2, sessionId := 42, lane := 1 },
    .open .core1 2 { localRole := 1, sessionId := 42, lane := 1 }]

/-- Role 0 sends to role 1, and role 2 polls: its loop stashes the frame for role 1. -/
def stashedForOther : List SioAction :=
  threePorts ++
    [.pollSend .core0 0 { targetRole := 1, frameLabel := 5, lane := 1, payload := [1] },
      .pollRecv .core1 1, .recvTurn .core1 false, .recvTurn .core1 false]

/-- The frame stashed for role 1 is delivered to it, and once more after a requeue. -/
theorem sio_accounted_stashed :
    ∃ s, sioMachine.exec .init (stashedForOther ++
        [.pollRecv .core1 2, .requeue .core1 2, .pollRecv .core1 2]) = some s ∧
      s.ledger.delivered = [⟨2, 1, 1, ⟨⟨42, 1, 0, 1, 5⟩, [1]⟩⟩] ∧
      s.ledger.repeated.map Repeat.delivery = s.ledger.delivered ∧
      Accounted s.ledger s.st.frames := by
  have hsome : (sioMachine.exec .init (stashedForOther ++
      [.pollRecv .core1 2, .requeue .core1 2, .pollRecv .core1 2])).map
      (fun s => (s.ledger.delivered, s.ledger.repeated.map Repeat.delivery)) =
        some ([⟨2, 1, 1, ⟨⟨42, 1, 0, 1, 5⟩, [1]⟩⟩], [⟨2, 1, 1, ⟨⟨42, 1, 0, 1, 5⟩, [1]⟩⟩]) := by
    decide +kernel
  obtain ⟨s, hrun, hs⟩ := Option.map_eq_some_iff.mp hsome
  obtain ⟨hdelivered, hrepeated⟩ := Prod.mk.inj hs
  exact ⟨s, hrun, hdelivered, hrepeated.trans hdelivered.symm,
    sio_accounted _ s hrun (by decide +kernel)⟩

/-- **A full stash slot loses a frame**: with one frame stashed for role 1, the next poll of role
2 takes a second one from the mailbox, answers `Capacity`, and drops it. -/
theorem sio_discards :
    ∃ s, sioMachine.exec .init (stashedForOther ++
        [.pollSend .core0 0 { targetRole := 1, frameLabel := 6, lane := 1, payload := [2] },
          .pollRecv .core1 1, .recvTurn .core1 false]) = some s ∧ ¬ NothingLost s := by
  have hsome : (sioMachine.exec .init (stashedForOther ++
        [.pollSend .core0 0 { targetRole := 1, frameLabel := 6, lane := 1, payload := [2] },
          .pollRecv .core1 1, .recvTurn .core1 false])).map
      (fun s => s.ledger.discarded.length) = some 1 := by decide +kernel
  obtain ⟨s, hrun, hdiscarded⟩ := Option.map_eq_some_iff.mp hsome
  refine ⟨s, hrun, fun hnothing => ?_⟩
  have hbalance := (sioInv_exec hrun (by decide +kernel)).accounted.balance
  rw [NothingLost] at hnothing
  rw [hnothing] at hbalance
  have hcard := congrArg Multiset.card hbalance
  simp only [Multiset.card_add, Multiset.coe_card, List.length_map] at hcard
  omega

end HibanaPico.Baker
