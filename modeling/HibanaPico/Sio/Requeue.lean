import HibanaPico.Baker.Requeue
import HibanaPico.Rp2w.Requeue

/-!
# Sio — The requeue law

Both SIO carriers obey the law of the frame in hand, whatever the calls on the other ports and of
the other core come between.

* `requeue_law`: every port of either, in every run.
-/

namespace HibanaPico.Sio
open HibanaPico.Support

/-- **The requeue law.**  In every run of either carrier, what is seen at a port is what the law
allows, from nothing in hand to what its Rx has in hand: a requeued frame is handed out again as it
was, with nothing else touched; a poll with none requeued hands out only a frame that it took, under
its sender's session, role and label and the role and lane of the Rx; and a requeue with nothing in
hand changes nothing. -/
theorem requeue_law :
    (∀ as s port, Baker.sioMachine.exec .init as = some s →
      Machine.Reads HandStep none (Baker.sioMachine.collect (Baker.rxEvents port) .init as)
        (s.hand port)) ∧
    ∀ depth as s port, (Rp2w.sioMachine depth).exec .init as = some s →
      Machine.Reads HandStep none ((Rp2w.sioMachine depth).collect (Rp2w.rxEvents port) .init as)
        (s.hand port) :=
  ⟨fun _ _ port h => Baker.reads_rxEvents h port, fun _ _ _ port h => Rp2w.reads_rxEvents h port⟩

end HibanaPico.Sio
