import HibanaPico.Support.Runs
import HibanaPico.Rp2w.EpfRoute

/-!
# RP2W — EPF UART ingress

The image of a policy comes in byte by byte on UART 0.  Both the UART's interrupt and the driver
that waits for an image drain its FIFO into one envelope parser, and publish the image that it
completes for the driver to copy.  The interrupt comes between any two steps of the driver.

* `uartRxByte`, `EpfIngress.drain`: `rp2w_uart_rx_byte`, and the drain of an interrupt.
* `EpfIngress.foregroundStep`: `try_load_uart_policy_image`, access by access.
* `epfIngressMachine`: bytes that arrive, interrupts, and steps of the driver, in any order.
-/

namespace HibanaPico.Rp2w
open HibanaPico.Support
open HibanaPico.Transport
open HibanaPico.Baker

/-! ### The envelope parser -/

/-- `hibana_epf::ImageIngressStatus`. -/
inductive ImageIngressStatus where
  | pending
  | rejected
  | ready (len : ℕ) (hash : U32)
  deriving DecidableEq, Repr

/-- `hibana_epf::ImageIngress<EPF_BYTECODE_BYTES>`, by the functions of it that the firmware calls,
and the hash of its envelopes. -/
structure ImageIngress (I : Type) where
  new : I
  push : I → U8 → I × ImageIngressStatus
  image : I → Option (List U8)
  clearReady : I → I
  imageHash : List U8 → U32

variable {I : Type}

namespace ImageIngress

/-- A parser that reports an image ready holds that image, of the reported length, within its
capacity and with the reported hash. -/
def Verifies (P : ImageIngress I) : Prop :=
  ∀ ingress byte ingress' len hash, P.push ingress byte = (ingress', .ready len hash) →
    ∃ image, P.image ingress' = some image ∧ image.length = len ∧ len ≤ epfBytecodeBytes ∧
      P.imageHash image = hash

end ImageIngress

/-! ### The statics -/

/-- The statics of the UART: those that `UartIngress` has, `HIBANA_EPF_UART_IMAGE_HASH` and
`HIBANA_EPF_UART_INGRESS`. -/
structure EpfUart (I : Type) extends UartIngress where
  hash : U32
  ingress : I

namespace EpfUart

def empty (P : ImageIngress I) : EpfUart I :=
  { UartIngress.empty with hash := 0, ingress := P.new }

/-- What is published: image, length and hash. -/
def published (u : EpfUart I) : Cells U8 × U32 × U32 := (u.image, u.len, u.hash)

end EpfUart

/-- `rp2w_uart_rx_byte`; `none` is its panic, where the image is shorter than reported. -/
def uartRxByte (P : ImageIngress I) (u : EpfUart I) (byte : U8) : Option (EpfUart I) :=
  match P.push u.ingress byte with
  | (ingress, .pending) | (ingress, .rejected) => some { u with ingress }
  | (ingress, .ready len hash) =>
      match P.image ingress with
      | none => some { u with ingress }
      | some image =>
          if image.length < len then none
          else some
            { image := u.image.store 0 (image.take len)
              len := BitVec.ofNat 32 len
              rxReady := true
              hash
              ingress := P.clearReady ingress }

/-- The image, and its hash, that the byte completes. -/
def completes (P : ImageIngress I) (u : EpfUart I) (byte : U8) : Option (List U8 × U32) :=
  match P.push u.ingress byte with
  | (ingress, .ready len hash) => (P.image ingress).map fun image => (image.take len, hash)
  | _ => none

/-! ### The driver and the interrupt -/

/-- A byte read from the UART's data register, and the number of its arrival: none for a read of the
empty FIFO. -/
structure RxByte where
  arrival : Option ℕ
  value : U8
  deriving DecidableEq, Repr

/-- The bytes in the order of their arrival. -/
def numbered (received : List U8) : List RxByte :=
  received.mapIdx fun i byte => ⟨some i, byte⟩

/-- The next access of the driver, in `try_load_uart_policy_image` and the functions it calls. -/
inductive Foreground where
  | idle
  /-- `read_volatile(UART0_FR)`. -/
  | readFr
  /-- `read_volatile(UART0_DR)`. -/
  | readDr
  /-- The call of `rp2w_uart_rx_byte`. -/
  | call (byte : RxByte)
  /-- Inside of it, with the parser borrowed. -/
  | pushing (byte : RxByte)
  /-- `rp2w_epf_uart_image_ready`. -/
  | imageReady
  /-- `TIMER_TIMERAWL` against the timeout. -/
  | clock
  /-- `read_epf_uart_image`: its look at the length. -/
  | readLen
  /-- Its loop, with the bytes copied so far. -/
  | copy (out : List U8)
  /-- `load_epf_uart_choreography_image`. -/
  | load
  /-- `rp2w_epf_uart_clear_image_ready`. -/
  | clear
  deriving DecidableEq, Repr

/-- The byte that the driver has taken out of the FIFO and not yet pushed. -/
def Foreground.held : Foreground → List RxByte
  | .call byte | .pushing byte => [byte]
  | _ => []

/-- The driver is inside of `rp2w_uart_rx_byte`. -/
def Foreground.borrows : Foreground → Bool
  | .pushing _ => true
  | _ => false

/-- The UART's receive FIFO, its statics and the driver; then the history: what has arrived, what
has been pushed, whether a push ran inside another, the completed images with their hashes, what was
published as the ready flag was raised, and the images read. -/
structure EpfIngress (I : Type) where
  fifo : List RxByte
  uart : EpfUart I
  foreground : Foreground
  received : List U8
  pushed : List RxByte
  reentered : Bool
  images : List (List U8 × U32)
  shown : Cells U8 × U32 × U32
  reads : List (List U8)

/-- The depth of the receive FIFO. -/
def uartFifoDepth : ℕ := 32

namespace EpfIngress

def init (P : ImageIngress I) : EpfIngress I where
  fifo := []
  uart := .empty P
  foreground := .idle
  received := []
  pushed := []
  reentered := false
  images := []
  shown := (EpfUart.empty P).published
  reads := []

/-- A call of `rp2w_uart_rx_byte`. -/
def push (P : ImageIngress I) (s : EpfIngress I) (byte : RxByte) : Option (EpfIngress I) :=
  (uartRxByte P s.uart byte.value).map fun uart =>
    { s with
      uart
      pushed := s.pushed ++ [byte]
      images := s.images ++ (completes P s.uart byte.value).toList
      shown := if s.uart.rxReady then s.shown else uart.published }

/-- Calls of it, for bytes out of the FIFO. -/
def pushAll (P : ImageIngress I) (s : EpfIngress I) : List RxByte → Option (EpfIngress I)
  | [] => some s
  | byte :: rest => (push P s byte).bind fun s => pushAll P s rest

/-- `uart0_irq_handler`: `rp2w_uart0_drain_rx`, until the FIFO is empty. -/
def interrupt (P : ImageIngress I) (s : EpfIngress I) : Option (EpfIngress I) :=
  pushAll P
    { s with
      fifo := []
      reentered := s.reentered || (s.foreground.borrows && !s.fifo.isEmpty) } s.fifo

/-- The next access of the driver.  `answer` says whether the time is over, and whether the image
could be loaded; `stale` is what the data register gives when its FIFO is empty. -/
def foregroundStep (P : ImageIngress I) (n : ℕ) (s : EpfIngress I) (answer : Bool) (stale : U8) :
    Option (EpfIngress I) :=
  match s.foreground with
  | .idle => some { s with foreground := .readFr }
  | .readFr => some { s with foreground := if s.fifo.isEmpty then .imageReady else .readDr }
  | .readDr =>
      match s.fifo with
      | [] => some { s with foreground := .call ⟨none, stale⟩ }
      | byte :: fifo => some { s with fifo, foreground := .call byte }
  | .call byte => some { s with foreground := .pushing byte }
  | .pushing byte => (push P s byte).map fun s => { s with foreground := .readFr }
  | .imageReady => some { s with foreground := if s.uart.rxReady then .readLen else .clock }
  | .clock => some { s with foreground := if answer then .idle else .readFr }
  | .readLen =>
      if s.uart.len.toNat ≠ n ∨ s.uart.len.toNat > epfBytecodeBytes then
        some { s with foreground := .idle }
      else some { s with foreground := .copy [] }
  | .copy out =>
      if out.length < n then
        some { s with foreground := .copy (out ++ [s.uart.image out.length]) }
      else some { s with foreground := .load, reads := s.reads ++ [out] }
  | .load => some { s with foreground := if answer then .clear else .idle }
  | .clear => some { s with foreground := .idle, uart := { s.uart with rxReady := false } }

/-- A byte arrives; a full FIFO loses it. -/
def arrive (s : EpfIngress I) (byte : U8) : EpfIngress I :=
  if s.fifo.length < uartFifoDepth then
    { s with
      fifo := s.fifo ++ [⟨some s.received.length, byte⟩]
      received := s.received ++ [byte] }
  else s

end EpfIngress

inductive EpfIngressAct where
  | arrive (byte : U8)
  | interrupt
  | foreground (answer : Bool) (stale : U8)
  deriving DecidableEq, Repr

/-- The driver and the interrupt handler, with images of `n` bytes. -/
def epfIngressMachine (P : ImageIngress I) (n : ℕ) : Machine (EpfIngress I) EpfIngressAct where
  next s
    | .arrive byte => some (s.arrive byte)
    | .interrupt => s.interrupt P
    | .foreground answer stale => s.foregroundStep P n answer stale

end HibanaPico.Rp2w
