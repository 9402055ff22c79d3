import HibanaPico.SensorPanel.Fresh
import HibanaPico.SensorPanel.LcdRows
import HibanaPico.Support.CharDisplay
import HibanaPico.Support.Runs

/-!
# Sensor panel — Lcd

The display behind its I2C bus: `i2c_write`'s words, the commands and the characters of
`lcd_command` and `lcd_data`, and the writes of the firmware over a whole run.
-/

namespace HibanaPico.SensorPanel
open HibanaPico.Transport HibanaPico.Support

/-! ### The bus -/

/-- `I2C_DATA_CMD_STOP`. -/
def i2cDataCmdStop : U32 := 1 <<< 9

/-- The word that `i2c_write` puts into `I2C_DATA_CMD`. -/
def i2cWord (byte : U8) (last : Bool) : U32 :=
  byte.setWidth 32 ||| if last then i2cDataCmdStop else 0

/-- What one `i2c_write` finds: whether the bus is idle before it, at which of its bytes the FIFO
has room, whether all has been sent and no abort been raised after it; and how many of its words
have reached the wire where it fails. -/
structure I2cAttempt where
  idle : Bool
  room : ℕ → Bool
  drained : Bool
  aborted : Bool
  reached : ℕ

/-- The loop of `i2c_write`: the words it pushes, and whether it comes to its end. -/
def i2cPush (room : ℕ → Bool) : ℕ → List U8 → List U32 × Bool
  | _, [] => ([], true)
  | index, byte :: rest =>
      if room index then
        let pushed := i2cPush room (index + 1) rest
        (i2cWord byte rest.isEmpty :: pushed.1, pushed.2)
      else ([], false)

/-- `i2c_write`: the words on the wire, and what it returns. -/
def i2cWrite (attempt : I2cAttempt) (bytes : List U8) : List U32 × Bool :=
  if bytes = [] ∨ attempt.idle = false then ([], false)
  else
    let pushed := i2cPush attempt.room 0 bytes
    if pushed.2 ∧ attempt.drained ∧ attempt.aborted = false then (pushed.1, true)
    else (pushed.1.take attempt.reached, false)

/-- The transactions on the wire: each ends with its STOP, and one without is none. -/
def transactions : List U32 → List (List U8)
  | [] => []
  | w :: ws =>
      if w &&& i2cDataCmdStop ≠ 0 then [w.setWidth 8] :: transactions ws
      else
        match transactions ws with
        | [] => []
        | t :: ts => (w.setWidth 8 :: t) :: ts

/-! ### The display -/

variable {σ : Type}

/-- What the display makes of a transaction: a control byte, and an instruction or a character. -/
def lcdTakes (D : CharDisplay σ) (s : σ) (transaction : List U8) : σ :=
  match transaction with
  | [control, byte] =>
      if control = 0x80 then D.instruct s byte
      else if control = 0x40 then D.put s byte
      else s
  | _ => s

/-- The display, and how many `i2c_write`s there have been. -/
structure LcdBus (σ : Type) where
  screen : σ
  writes : ℕ

/-- `i2c_write(lcd_i2c_base(), LCD_ADDR, bytes)`. -/
def lcdWrite (D : CharDisplay σ) (A : ℕ → I2cAttempt) (bus : LcdBus σ) (bytes : List U8) :
    LcdBus σ × Bool :=
  let written := i2cWrite (A bus.writes) bytes
  (⟨(transactions written.1).foldl (lcdTakes D) bus.screen, bus.writes + 1⟩, written.2)

/-- `lcd_command`. -/
def lcdCommand (D : CharDisplay σ) (A : ℕ → I2cAttempt) (bus : LcdBus σ) (command : U8) :
    LcdBus σ × Bool :=
  lcdWrite D A bus [0x80, command]

/-- `lcd_data`: a character that fails does not keep the next from being written. -/
def lcdData (D : CharDisplay σ) (A : ℕ → I2cAttempt) (bus : LcdBus σ) (bytes : List U8) :
    LcdBus σ × Bool :=
  (bytes.take 16).foldl (fun state byte =>
    let written := lcdWrite D A state.1 [0x40, byte]
    (written.1, state.2 && written.2)) (bus, true)

/-- `rp2w_lcd_write_lines`. -/
def rp2wLcdWriteLines (D : CharDisplay σ) (A : ℕ → I2cAttempt) (bus : LcdBus σ)
    (line1 line2 : List U8) : LcdBus σ × Bool :=
  let home := lcdCommand D A bus 0x80
  let first := lcdData D A home.1 (copyLcdLine line1)
  let down := lcdCommand D A first.1 0xc0
  let second := lcdData D A down.1 (copyLcdLine line2)
  (second.1, home.2 && first.2 && down.2 && second.2)

/-- `rp2w_lcd_write_payload`. -/
def rp2wLcdWritePayload (D : CharDisplay σ) (A : ℕ → I2cAttempt) (bus : LcdBus σ)
    (bytes : List U8) : LcdBus σ × Bool :=
  rp2wLcdWriteLines D A bus (lcdPayloadLines bytes).1 (lcdPayloadLines bytes).2

/-- `rp2w_lcd_write_pico2w_sensor_sample`. -/
def rp2wLcdWritePico2wSensorSample (D : CharDisplay σ) (A : ℕ → I2cAttempt) (bus : LcdBus σ)
    (payload : List U8) : Option (LcdBus σ × Bool) :=
  match Pico2wSensorSample.decodePayload payload with
  | .error _ => some (rp2wLcdWriteLines D A bus (ascii "bad sample") (ascii "typed payload"))
  | .ok sample => (rp2wFormatPico2wSensorSample sample 64).map (rp2wLcdWritePayload D A bus)

/-- The commands of `rp2w_lcd_init`. -/
def lcdInitCommands : List U8 := [0x28, 0x28, 0x28, 0x28, 0x08, 0x01, 0x06, 0x0c, 0x01]

/-- `rp2w_lcd_init`. -/
def rp2wLcdInit (D : CharDisplay σ) (A : ℕ → I2cAttempt) (bus : LcdBus σ) : LcdBus σ × Bool :=
  let probe := lcdWrite D A bus [0x00]
  lcdInitCommands.foldl (fun state command =>
    let written := lcdCommand D A state.1 command
    (written.1, state.2 && written.2)) probe

/-- What the firmware writes to the display once it is up: a status, a payload, a sample. -/
inductive LcdCall where
  | lines (line1 line2 : List U8)
  | payload (bytes : List U8)
  | sample (payload : List U8)

/-- One of the writes, whatever becomes of it. -/
def lcdMachine (D : CharDisplay σ) (A : ℕ → I2cAttempt) : Machine (LcdBus σ) LcdCall where
  next bus call :=
    match call with
    | .lines line1 line2 => some (rp2wLcdWriteLines D A bus line1 line2).1
    | .payload bytes => some (rp2wLcdWritePayload D A bus bytes).1
    | .sample payload => (rp2wLcdWritePico2wSensorSample D A bus payload).map Prod.fst

/-! ### A transaction -/

theorem i2cWord_last (byte : U8) :
    i2cWord byte true &&& i2cDataCmdStop ≠ 0 ∧ (i2cWord byte true).setWidth 8 = byte := by
  revert byte
  decide +kernel

theorem i2cWord_more (byte : U8) :
    i2cWord byte false &&& i2cDataCmdStop = 0 ∧ (i2cWord byte false).setWidth 8 = byte := by
  revert byte
  decide +kernel

/-- The words of some bytes: the last one has its STOP. -/
def i2cFramed : List U8 → List U32
  | [] => []
  | byte :: rest => i2cWord byte rest.isEmpty :: i2cFramed rest

theorem i2cPush_framed (room : ℕ → Bool) (index : ℕ) (bytes : List U8) :
    (i2cPush room index bytes).1 <+: i2cFramed bytes ∧
      ((i2cPush room index bytes).2 = true → (i2cPush room index bytes).1 = i2cFramed bytes) := by
  induction bytes generalizing index with
  | nil => exact ⟨List.prefix_rfl, fun _ => rfl⟩
  | cons byte rest ih =>
      obtain ⟨hpushed, hall⟩ := ih (index + 1)
      rw [i2cPush]
      split
      · exact ⟨List.prefix_cons_inj _ |>.mpr hpushed, fun hok => congrArg _ (hall hok)⟩
      · exact ⟨List.nil_prefix, fun hok => absurd hok Bool.false_ne_true⟩

theorem transactions_framed {bytes : List U8} (h : bytes ≠ []) :
    transactions (i2cFramed bytes) = [bytes] := by
  induction bytes with
  | nil => exact absurd rfl h
  | cons byte rest ih =>
      cases rest with
      | nil =>
          obtain ⟨hstop, hbyte⟩ := i2cWord_last byte
          simp only [i2cFramed, List.isEmpty_nil, transactions, if_pos hstop, hbyte]
      | cons next rest =>
          obtain ⟨hmore, hbyte⟩ := i2cWord_more byte
          have hrest := ih (List.cons_ne_nil next rest)
          rw [i2cFramed, List.isEmpty_cons, transactions, hmore, if_neg (fun h => h rfl), hrest,
            hbyte]

/-- Words that stop short of the STOP are no transaction. -/
theorem transactions_short {bytes : List U8} {words : List U32}
    (h : words <+: i2cFramed bytes) : transactions words = [] ∨ transactions words = [bytes] := by
  induction bytes generalizing words with
  | nil => exact .inl (by rw [List.prefix_nil.mp h, transactions])
  | cons byte rest ih =>
      cases words with
      | nil => exact .inl rfl
      | cons w words =>
          obtain ⟨rfl, hwords⟩ := List.cons_prefix_cons.mp h
          cases rest with
          | nil =>
              rw [List.prefix_nil.mp hwords]
              exact .inr (transactions_framed (List.cons_ne_nil byte []))
          | cons next rest =>
              obtain ⟨hmore, hbyte⟩ := i2cWord_more byte
              rw [List.isEmpty_cons, transactions, hmore, if_neg (fun h => h rfl), hbyte]
              rcases ih hwords with hnone | hone
              · exact .inl (by rw [hnone])
              · exact .inr (by rw [hone])

/-- **One `i2c_write`.**  Its bytes make one transaction, or where it fails perhaps none. -/
theorem i2cWrite_transactions (attempt : I2cAttempt) (bytes : List U8) :
    (transactions (i2cWrite attempt bytes).1 = [] ∨
        transactions (i2cWrite attempt bytes).1 = [bytes]) ∧
      ((i2cWrite attempt bytes).2 = true →
        transactions (i2cWrite attempt bytes).1 = [bytes]) := by
  obtain ⟨hpushed, hall⟩ := i2cPush_framed attempt.room 0 bytes
  rw [i2cWrite]
  by_cases hstart : bytes = [] ∨ attempt.idle = false
  · rw [if_pos hstart]
    exact ⟨.inl rfl, fun hok => absurd hok Bool.false_ne_true⟩
  · rw [if_neg hstart]
    by_cases hend : (i2cPush attempt.room 0 bytes).2 ∧ attempt.drained ∧ attempt.aborted = false
    · have hbytes := transactions_framed fun hnil => hstart (.inl hnil)
      simp only [if_pos hend, hall hend.1]
      exact ⟨.inr hbytes, fun _ => hbytes⟩
    · simp only [if_neg hend]
      exact ⟨transactions_short ((List.take_prefix _ _).trans hpushed),
        fun hok => absurd hok Bool.false_ne_true⟩

/-! ### The writes -/

variable (D : CharDisplay σ) (A : ℕ → I2cAttempt) {bus : LcdBus σ}

/-- A write reaches the display or it does not; if it returns `true` it does. -/
theorem lcdWrite_screen (bus : LcdBus σ) (bytes : List U8) :
    ((lcdWrite D A bus bytes).1.screen = bus.screen ∨
        (lcdWrite D A bus bytes).1.screen = lcdTakes D bus.screen bytes) ∧
      ((lcdWrite D A bus bytes).2 = true →
        (lcdWrite D A bus bytes).1.screen = lcdTakes D bus.screen bytes) := by
  obtain ⟨hsome, hok⟩ := i2cWrite_transactions (A bus.writes) bytes
  simp only [lcdWrite]
  refine ⟨?_, fun h => by rw [hok h]; rfl⟩
  rcases hsome with hnone | hone
  · exact .inl (by rw [hnone]; rfl)
  · exact .inr (by rw [hone]; rfl)

theorem lcdTakes_instruct (s : σ) (command : U8) :
    lcdTakes D s [0x80, command] = D.instruct s command := rfl

/-- Writes one after the other, all of them whatever becomes of each. -/
def writeAll (control : U8) (bytes : List U8) (state : LcdBus σ × Bool) : LcdBus σ × Bool :=
  bytes.foldl (fun state byte =>
    let written := lcdWrite D A state.1 [control, byte]
    (written.1, state.2 && written.2)) state

/-- What each of the writes keeps, reached or not, all of them keep. -/
theorem writeAll_keeps {control : U8} {P : σ → Prop} {bytes : List U8}
    (h : ∀ b ∈ bytes, ∀ s, P s → P (lcdTakes D s [control, b])) {state : LcdBus σ × Bool}
    (hP : P state.1.screen) : P (writeAll D A control bytes state).1.screen := by
  induction bytes generalizing state with
  | nil => exact hP
  | cons byte bytes ih =>
      refine ih (fun b hb => h b (List.mem_cons_of_mem byte hb)) ?_
      rcases (lcdWrite_screen D A state.1 [control, byte]).1 with hsame | htaken
      · exact hsame ▸ hP
      · exact htaken ▸ h byte List.mem_cons_self _ hP

/-- Writes that all return `true` have all reached the display. -/
theorem writeAll_taken {control : U8} {bytes : List U8} {state : LcdBus σ × Bool}
    (h : (writeAll D A control bytes state).2 = true) :
    state.2 = true ∧ (writeAll D A control bytes state).1.screen =
      bytes.foldl (fun s b => lcdTakes D s [control, b]) state.1.screen := by
  induction bytes generalizing state with
  | nil => exact ⟨h, rfl⟩
  | cons byte bytes ih =>
      obtain ⟨hok, hscreen⟩ := ih h
      obtain ⟨hbefore, hwritten⟩ := Bool.and_eq_true_iff.mp hok
      refine ⟨hbefore, hscreen.trans ?_⟩
      rw [List.foldl_cons, (lcdWrite_screen D A state.1 [control, byte]).2 hwritten]

theorem lcdData_eq (bus : LcdBus σ) (bytes : List U8) :
    lcdData D A bus bytes = writeAll D A 0x40 (bytes.take 16) (bus, true) := rfl

/-- An instruction that goes to an address, reached or not, keeps the display ready. -/
theorem ready_lcdCommand {a : U8} (ha : a &&& 0x80 = 0) (hready : D.Ready bus.screen) :
    D.Ready (lcdCommand D A bus (0x80 ||| a)).1.screen := by
  rcases (lcdWrite_screen D A bus [0x80, 0x80 ||| a]).1 with hsame | htaken
  · exact (congrArg D.Ready hsame).mpr hready
  · exact (congrArg D.Ready htaken).mpr (hready.seek D ha)

theorem ready_lcdData (bytes : List U8) (hready : D.Ready bus.screen) :
    D.Ready (lcdData D A bus bytes).1.screen :=
  writeAll_keeps D A (fun _ _ _ h => h.put D) hready

theorem lcdCommand_taken (bus : LcdBus σ) (command : U8)
    (h : (lcdCommand D A bus command).2 = true) :
    (lcdCommand D A bus command).1.screen = D.instruct bus.screen command :=
  (lcdWrite_screen D A bus [0x80, command]).2 h

theorem lcdData_taken (bus : LcdBus σ) (line : List U8)
    (h : (lcdData D A bus (copyLcdLine line)).2 = true) :
    (lcdData D A bus (copyLcdLine line)).1.screen = D.type bus.screen (copyLcdLine line) := by
  have hline : (copyLcdLine line).take 16 = copyLcdLine line := by
    rw [copyLcdLine_eq]
    exact List.take_of_length_le (Format.length_row line).le
  rw [lcdData_eq, hline] at h ⊢
  exact (writeAll_taken D A h).2

/-- The lines written on a ready display: it stays ready, whatever fails, and where nothing fails
it has taken them both. -/
theorem writeLines_screen (hready : D.Ready bus.screen) (line1 line2 : List U8) :
    D.Ready (rp2wLcdWriteLines D A bus line1 line2).1.screen ∧
      ((rp2wLcdWriteLines D A bus line1 line2).2 = true →
        (rp2wLcdWriteLines D A bus line1 line2).1.screen =
          D.write bus.screen (copyLcdLine line1) (copyLcdLine line2)) := by
  have hhome : D.Ready (lcdCommand D A bus 0x80).1.screen :=
    ready_lcdCommand D A (a := 0) (by decide) hready
  have hsought := lcdCommand_taken D A bus 0x80
  simp only [rp2wLcdWriteLines, CharDisplay.write]
  generalize lcdCommand D A bus 0x80 = home at *
  have hfirst := ready_lcdData D A (copyLcdLine line1) hhome
  have htyped := lcdData_taken D A home.1 line1
  generalize lcdData D A home.1 (copyLcdLine line1) = first at *
  have hdown : D.Ready (lcdCommand D A first.1 0xc0).1.screen :=
    ready_lcdCommand D A (a := 0x40) (by decide) hfirst
  have hsought' := lcdCommand_taken D A first.1 0xc0
  generalize lcdCommand D A first.1 0xc0 = down at *
  refine ⟨ready_lcdData D A (copyLcdLine line2) hdown, fun hok => ?_⟩
  simp only [Bool.and_eq_true] at hok
  obtain ⟨⟨⟨hok₁, hok₂⟩, hok₃⟩, hok₄⟩ := hok
  rw [lcdData_taken D A down.1 line2 hok₄, hsought' hok₃, htyped hok₂, hsought hok₁]

theorem writeSample_eq (bus : LcdBus σ) (payload : List U8) :
    rp2wLcdWritePico2wSensorSample D A bus payload =
      some (rp2wLcdWriteLines D A bus (linesOf payload).1 (linesOf payload).2) := by
  rw [rp2wLcdWritePico2wSensorSample, linesOf]
  cases Pico2wSensorSample.decodePayload payload with
  | error _ => rfl
  | ok sample =>
      obtain ⟨hfirst, hsecond⟩ := sampleText_lines sample
      simp only [format_eq, Option.map_some, rp2wLcdWritePayload,
        lcdPayloadLines_eq hfirst hsecond]

/-! ### From the start -/

/-- `rp2w_lcd_init`, where all of it goes through, leaves the display ready, whatever it was. -/
theorem ready_init (h : (rp2wLcdInit D A bus).2 = true) :
    D.Ready (rp2wLcdInit D A bus).1.screen := by
  have hinit : rp2wLcdInit D A bus =
    writeAll D A 0x80 lcdInitCommands (lcdWrite D A bus [0x00]) := rfl
  rw [hinit] at h ⊢
  rw [CharDisplay.Ready, (writeAll_taken D A h).2]
  simp only [lcdInitCommands, List.foldl_cons, List.foldl_nil, lcdTakes_instruct,
    D.settings_functionSet, D.settings_off, D.settings_on, D.settings_entryMode,
    D.settings_clear]

/-- Every write keeps the display ready. -/
theorem ready_next {bus' : LcdBus σ} {call : LcdCall} (hready : D.Ready bus.screen)
    (h : (lcdMachine D A).next bus call = some bus') : D.Ready bus'.screen := by
  cases call with
  | lines line1 line2 =>
      cases h
      exact (writeLines_screen D A hready line1 line2).1
  | payload bytes =>
      cases h
      exact (writeLines_screen D A hready _ _).1
  | sample payload =>
      simp only [lcdMachine, writeSample_eq, Option.map_some, Option.some.injEq] at h
      subst h
      exact (writeLines_screen D A hready _ _).1

/-- The rows of the display. -/
def lcdRows (bus : LcdBus σ) : List U8 × List U8 :=
  (D.line bus.screen 0x00 lcdColumns, D.line bus.screen 0x40 lcdColumns)

theorem rows_written (hready : D.Ready bus.screen) {line1 line2 : List U8}
    (hok : (rp2wLcdWriteLines D A bus line1 line2).2 = true) :
    lcdRows D (rp2wLcdWriteLines D A bus line1 line2).1 =
      (copyLcdLine line1, copyLcdLine line2) := by
  have hlength (line : List U8) : (copyLcdLine line).length = lcdColumns := by
    rw [copyLcdLine_eq, Format.length_row]
  have hshort (line : List U8) : (copyLcdLine line).length < 0x28 := by
    rw [hlength]
    decide
  have hrows := D.line_write hready (hshort line1) (hshort line2)
  rw [hlength, hlength] at hrows
  rw [lcdRows, (writeLines_screen D A hready line1 line2).2 hok]
  exact Prod.ext hrows.1 hrows.2

variable {calls : List LcdCall} {bus₀ : LcdBus σ}

/-- **The display reads back over whole runs.**  Let the display be initialised, and let the
firmware then write to it what it likes, with whatever failures of its bus.  A sample whose write
returns `true` stands on it: the rows read back as what the payload says exactly when its first
line has no more characters than a row. -/
theorem lcd_reads_back_iff (hinit : (rp2wLcdInit D A bus₀).2 = true)
    (hrun : (lcdMachine D A).exec (rp2wLcdInit D A bus₀).1 calls = some bus)
    (payload : List U8) :
    ∃ written, rp2wLcdWritePico2wSensorSample D A bus payload = some written ∧
      D.Ready written.1.screen ∧
      (written.2 = true →
        (readDisplay (lcdRows D written.1).1 (lcdRows D written.1).2 = some (shownOf payload) ↔
          (linesOf payload).1.length ≤ lcdColumns)) := by
  have hready := Machine.exec_keeps (fun _ _ _ hready h => ready_next D A hready h)
    (ready_init D A hinit) hrun
  refine ⟨_, writeSample_eq D A bus payload, (writeLines_screen D A hready _ _).1, ?_⟩
  intro hok
  rw [rows_written D A hready hok]
  exact displayed_reads_iff payload

/-- A display in some state, with characters on it. -/
def someScreen : LcdBus DisplayRegisters :=
  ⟨⟨⟨false, false, false, true, false⟩, fun _ => 0x3f, 7⟩, 0⟩

/-- A bus on which one write fails, after its first word. -/
def failsOnce (n : ℕ) : ℕ → I2cAttempt := fun i => ⟨true, fun _ => true, true, i = n, 1⟩

/-- The payload of a sample of the widest temperature and humidity. -/
def widestPayload : List U8 := [0, 0x00, 0x80, 0xff, 0xff, 0x84, 0x03, 0x07, 0x00]

/-- The payload of a sample of 21.5 degrees and 40.0 percent. -/
def roomPayload : List U8 := [0, 0xd7, 0x00, 0x90, 0x01, 0x84, 0x03, 0x07, 0x00]

theorem lcd_reads_back_room :
    (rp2wLcdInit plainDisplay (failsOnce 15) someScreen).2 = true ∧
      (linesOf roomPayload).1.length ≤ lcdColumns ∧
      ¬ (linesOf widestPayload).1.length ≤ lcdColumns ∧
      ∃ bus written, (lcdMachine plainDisplay (failsOnce 15)).exec
          (rp2wLcdInit plainDisplay (failsOnce 15) someScreen).1 [.sample widestPayload] =
            some bus ∧
        rp2wLcdWritePico2wSensorSample plainDisplay (failsOnce 15) bus roomPayload =
          some written ∧
        written.2 = true ∧
        readDisplay (lcdRows plainDisplay written.1).1 (lcdRows plainDisplay written.1).2 =
          some (.fresh 215 400 900 7) := by
  have hinit : (rp2wLcdInit plainDisplay (failsOnce 15) someScreen).2 = true := by
    decide +kernel
  have hshort : (linesOf roomPayload).1.length ≤ lcdColumns := by decide +kernel
  have hlong : ¬ (linesOf widestPayload).1.length ≤ lcdColumns := by decide +kernel
  have hsaid : shownOf roomPayload = .fresh 215 400 900 7 := by decide +kernel
  have hrun : ((lcdMachine plainDisplay (failsOnce 15)).exec
      (rp2wLcdInit plainDisplay (failsOnce 15) someScreen).1 [.sample widestPayload]).bind
        (fun bus => (rp2wLcdWritePico2wSensorSample plainDisplay (failsOnce 15) bus
          roomPayload).map Prod.snd) = some true := by decide +kernel
  obtain ⟨bus, hbus, hwrite⟩ := Option.bind_eq_some_iff.mp hrun
  obtain ⟨written, hwritten, hok⟩ := Option.map_eq_some_iff.mp hwrite
  obtain ⟨written', hwritten', -, hreads⟩ :=
    lcd_reads_back_iff plainDisplay (failsOnce 15) hinit hbus roomPayload
  obtain rfl := Option.some.inj (hwritten.symm.trans hwritten')
  exact ⟨hinit, hshort, hlong, bus, written, hbus, hwritten, hok,
    hsaid ▸ (hreads hok).mpr hshort⟩

/-- **Every reading is shown whole.**  Whatever the light and the DHT20's bus answer, the payload
that `handle_fd_read` makes of them, once its write to the display has returned `true`, stands
there with the reading's tenths, the light and the number. -/
theorem lcd_shows_reading (hinit : (rp2wLcdInit D A bus₀).2 = true)
    (hrun : (lcdMachine D A).exec (rp2wLcdInit D A bus₀).1 calls = some bus) {lightRaw seq : U16}
    {dht : Dht20Bus} {payload : List U8} (hsampled : sampledPayload lightRaw dht seq = some payload)
    {written : LcdBus σ × Bool}
    (hwrite : rp2wLcdWritePico2wSensorSample D A bus payload = some written)
    (hok : written.2 = true) :
    readDisplay (lcdRows D written.1).1 (lcdRows D written.1).2 =
      some (.fresh (dht20Tenths dht).1 (dht20Tenths dht).2 lightRaw.toNat seq.toNat) := by
  have hready := Machine.exec_keeps (fun _ _ _ hready h => ready_next D A hready h)
    (ready_init D A hinit) hrun
  rw [sampledPayload_eq, Option.some.injEq] at hsampled
  rw [writeSample_eq, Option.some.injEq] at hwrite
  subst hsampled hwrite
  rw [rows_written D A hready hok]
  exact sampled_reads_back lightRaw dht seq

theorem lcd_shows_reading_room :
    (rp2wLcdInit plainDisplay (failsOnce 15) someScreen).2 = true ∧
      ∃ payload bus written, sampledPayload 900 dht20Answer 7 = some payload ∧
        (lcdMachine plainDisplay (failsOnce 15)).exec
          (rp2wLcdInit plainDisplay (failsOnce 15) someScreen).1 [.sample payload] = some bus ∧
        rp2wLcdWritePico2wSensorSample plainDisplay (failsOnce 15) bus payload = some written ∧
        written.2 = true ∧
        readDisplay (lcdRows plainDisplay written.1).1 (lcdRows plainDisplay written.1).2 =
          some (.fresh (dht20Tenths dht20Answer).1 (dht20Tenths dht20Answer).2 900 7) := by
  have hinit : (rp2wLcdInit plainDisplay (failsOnce 15) someScreen).2 = true := by
    decide +kernel
  have hrun : ((sampledPayload 900 dht20Answer 7).bind fun payload =>
      ((lcdMachine plainDisplay (failsOnce 15)).exec
        (rp2wLcdInit plainDisplay (failsOnce 15) someScreen).1 [.sample payload]).bind fun bus =>
          (rp2wLcdWritePico2wSensorSample plainDisplay (failsOnce 15) bus payload).map
            Prod.snd) = some true := by decide +kernel
  obtain ⟨payload, hpayload, hafter⟩ := Option.bind_eq_some_iff.mp hrun
  obtain ⟨bus, hbus, hwrite⟩ := Option.bind_eq_some_iff.mp hafter
  obtain ⟨written, hwritten, hok⟩ := Option.map_eq_some_iff.mp hwrite
  exact ⟨hinit, payload, bus, written, hpayload, hbus, hwritten, hok,
    lcd_shows_reading plainDisplay (failsOnce 15) hinit hbus hpayload hwritten hok⟩

end HibanaPico.SensorPanel
