import HibanaPico.UnoQ.SessionTalk

/-!
# Uno Q — The faces of a scripted session

Without a language model, what a session of the five roles shows is settled by its inputs alone: the
face that the human asks for, or else the one for the light that the sensor sees, or else the next
frame of the script.

* `dueFace`: the face of a cycle.
* `scripted_shows`: the script's command for a cycle shows it.
* `session_shows`: so does every run, cycle by cycle.
-/

namespace HibanaPico.UnoQ
open HibanaPico.Support
open HibanaPico.Transport
open HibanaPico.SensorPanel (Pico2wSensorSample pico2wSensorStatusPending pico2wSensorStatusStale
  pico2wSensorStatusFresh U16)

/-! ### The face that is due -/

/-- The faces that a human can ask for, the ones that are looked for first first. -/
def requestFaces : List U8 :=
  [faceHappy, faceAngry, faceSad, faceSurprised, faceMouthClosed, faceMouthSmall, faceMouthWide,
    faceMouthRound]

/-- The text asks for the face by its command. -/
def asksFor (request : List U8) (face : U8) : Bool :=
  match faceShellLabel face with
  | .ok label => decide (echoCommand label <:+: request)
  | .error _ => false

/-- The face that the human asks for. -/
def askedFace (request : Option (List U8)) : Option U8 :=
  request.bind fun text => requestFaces.find? (asksFor text)

/-- The face for the light: sad in the dark, surprised in the glare. -/
def lightFace (lightRaw : U16) : U8 :=
  if lightRaw ≤ pico2wLightWeakRaw then faceSad
  else if lightRaw ≥ pico2wLightStrongRaw then faceSurprised
  else faceHappy

/-- The face for the sensor: none while it is pending, sad when it has gone stale and nobody
speaks. -/
def sensorFace (sample : Pico2wSensorSample) (spoken : Bool) : Option U8 :=
  if sample.status = pico2wSensorStatusFresh then some (lightFace sample.lightRaw)
  else if sample.status = pico2wSensorStatusStale ∧ spoken = false then some faceSad
  else none

/-- The face of a cycle: the human's, or else the sensor's, or else the script's. -/
def dueFace (request : Option (List U8)) (sample : Pico2wSensorSample) (ordinal : U8) : U8 :=
  (askedFace request).getD
    ((sensorFace sample request.isSome).getD (cycleFrame ordinal.toNat))

/-! ### The commands of the script -/

theorem readCommand_of_shows {command : List U8} {face : U8} (shows : Shows command face) :
    readCommand command = .face face := by
  obtain ⟨label, named, rfl⟩ := shows
  exact readCommand_eq_face_iff.mpr ⟨label, decodeFaceCode_of_faceShellLabel named, .inr rfl⟩

theorem shows_echo {face : U8} {label : List U8} (named : faceShellLabel face = .ok label) :
    Shows (echoCommand label ++ [newline]) face := ⟨label, named, rfl⟩

/-- Every face that can be asked for has a label, and the labels are looked for in this order. -/
theorem labels_eq : requestFaces.map faceShellLabel = requestLabels.map .ok := by decide +kernel

/-- The search for a command in the text is that for its face. -/
theorem find_label (request : List U8) {faces : List U8} {labels : List (List U8)}
    (same : faces.map faceShellLabel = labels.map .ok) :
    (faces.find? (asksFor request) = none ∧
      (labels.find? fun label => decide (echoCommand label <:+: request)) = none) ∨
    ∃ face label, faces.find? (asksFor request) = some face ∧
      (labels.find? fun label => decide (echoCommand label <:+: request)) = some label ∧
      faceShellLabel face = .ok label := by
  induction faces generalizing labels with
  | nil =>
      obtain rfl : labels = [] := List.map_eq_nil_iff.mp same.symm
      exact .inl ⟨rfl, rfl⟩
  | cons face faces ih =>
      cases labels with
      | nil => cases same
      | cons label labels =>
          obtain ⟨named, rest⟩ := List.cons.inj same
          have asks : asksFor request face = decide (echoCommand label <:+: request) := by
            rw [asksFor, named]
          rw [List.find?_cons, List.find?_cons, asks]
          split
          · exact .inr ⟨face, label, rfl, rfl, named⟩
          · exact ih rest

/-- The command for a human's text shows the face that it asks for. -/
theorem humanCommand (text : List U8) :
    (requestFaces.find? (asksFor text) = none ∧
      scriptedHumanRequestShellCommand text = .ok none) ∨
    ∃ face command, requestFaces.find? (asksFor text) = some face ∧
      scriptedHumanRequestShellCommand text = .ok (some command) ∧ Shows command face := by
  rcases find_label text labels_eq with ⟨nobody, none⟩ | ⟨face, label, asked, found, named⟩
  · refine .inl ⟨nobody, ?_⟩
    rw [scriptedHumanRequestShellCommand, none]
  · refine .inr ⟨face, echoCommand label ++ [newline], asked, ?_, shows_echo named⟩
    rw [scriptedHumanRequestShellCommand, found]
    simp only [copyFaceEchoCommand_eq (List.mem_of_find?_eq_some found)]
    rfl

theorem lightLabel (lightRaw : U16) :
    copyFaceEchoCommand (pico2wLightFaceLabel lightRaw) =
      .ok (echoCommand (pico2wLightFaceLabel lightRaw) ++ [newline]) ∧
    faceShellLabel (lightFace lightRaw) = .ok (pico2wLightFaceLabel lightRaw) := by
  rw [pico2wLightFaceLabel, lightFace]
  split
  · exact ⟨copyFaceEchoCommand_eq (by decide), rfl⟩
  · split
    · exact ⟨copyFaceEchoCommand_eq (by decide), rfl⟩
    · exact ⟨copyFaceEchoCommand_eq (by decide), rfl⟩

/-- The command for a sample shows the sensor's face. -/
theorem sensorCommand (sample : Pico2wSensorSample) (spoken : Bool) :
    (sensorFace sample spoken = none ∧
      scriptedPico2wSensorShellCommand sample spoken = .ok none) ∨
    ∃ face command, sensorFace sample spoken = some face ∧
      scriptedPico2wSensorShellCommand sample spoken = .ok (some command) ∧
      Shows command face := by
  have pending_ne : pico2wSensorStatusPending ≠ pico2wSensorStatusFresh := by decide
  have stale_ne : pico2wSensorStatusStale ≠ pico2wSensorStatusFresh := by decide
  have pending_ne_stale : pico2wSensorStatusPending ≠ pico2wSensorStatusStale := by decide
  rw [sensorFace, scriptedPico2wSensorShellCommand]
  by_cases pending : sample.status = pico2wSensorStatusPending
  · left
    rw [if_pos pending, pending, if_neg pending_ne, if_neg fun h => pending_ne_stale h.1]
    exact ⟨rfl, rfl⟩
  · rw [if_neg pending]
    by_cases stale : sample.status = pico2wSensorStatusStale ∧ spoken = false
    · right
      rw [if_pos stale, if_neg fun fresh => stale_ne (stale.1.symm.trans fresh), if_pos stale]
      refine ⟨faceSad, echoCommand (ascii ['s']) ++ [newline], rfl, ?_, shows_echo rfl⟩
      rw [copyFaceEchoCommand_eq (by decide)]
      rfl
    · rw [if_neg stale]
      by_cases fresh : sample.status = pico2wSensorStatusFresh
      · right
        rw [if_pos fresh, if_neg (not_not.mpr fresh)]
        obtain ⟨copies, named⟩ := lightLabel sample.lightRaw
        refine ⟨_, _, rfl, ?_, shows_echo named⟩
        rw [copies, if_neg stale]
        rfl
      · left
        rw [if_neg fresh, if_neg stale, if_pos fresh]
        exact ⟨rfl, rfl⟩

/-- The human's command, or else the sensor's, in place of the script's. -/
theorem overrideCommand (context : LocalLlmPromptContext) :
    ((askedFace context.humanRequest).orElse fun _ =>
        sensorFace context.sensorSample context.humanRequest.isSome) = none ∧
      context.override = .ok none ∨
    ∃ face command, ((askedFace context.humanRequest).orElse fun _ =>
        sensorFace context.sensorSample context.humanRequest.isSome) = some face ∧
      context.override = .ok (some command) ∧ Shows command face := by
  obtain ⟨request, sample⟩ := context
  cases request with
  | none => exact sensorCommand sample false
  | some text =>
      have sensor := sensorCommand sample true
      rcases humanCommand text with ⟨nobody, none⟩ | ⟨face, command, asked, answer, shows⟩
      · simp only [LocalLlmPromptContext.override, askedFace, Option.bind_some, nobody, none]
        exact sensor
      · refine .inr ⟨face, command, ?_, ?_, shows⟩
        · simp only [askedFace, Option.bind_some, asked]
          rfl
        · simp only [LocalLlmPromptContext.override, answer]
          rfl

theorem dueFace_eq (request : Option (List U8)) (sample : Pico2wSensorSample) (ordinal : U8) :
    dueFace request sample ordinal =
      ((askedFace request).orElse fun _ => sensorFace sample request.isSome).getD
        (cycleFrame ordinal.toNat) := by
  rw [dueFace]
  cases askedFace request <;> rfl

/-- **The script's command** for a cycle shows the face that is due. -/
theorem scripted_shows {phase : U8} (second : phase ≠ 0) (ordinal : U8)
    (context : LocalLlmPromptContext) :
    ∃ command, scriptedNextCommand phase ordinal context = .ok command ∧
      Shows command (dueFace context.humanRequest context.sensorSample ordinal) := by
  rw [dueFace_eq]
  rcases overrideCommand context with ⟨nobody, none⟩ | ⟨face, command, some, answer, shows⟩
  · obtain ⟨command, scripted, -, -, -, shows⟩ := scripted_of_phase phase ordinal
    refine ⟨command, ?_, ?_⟩
    · simp only [scriptedNextCommand, none, if_pos second]
      exact scripted
    · rw [nobody]
      exact shows second
  · refine ⟨command, ?_, ?_⟩
    · simp only [scriptedNextCommand, answer, if_pos second]
      rfl
    · rw [some]
      exact shows

theorem length_of_shows {command : List U8} {face : U8} (shows : Shows command face) :
    0 < command.length ∧ command.length ≤ 30 := by
  obtain ⟨label, named, rfl⟩ := shows
  have short := (shellFaceCodes_short label
    (decodeFaceCode_eq_some (decodeFaceCode_of_faceShellLabel named)).1).2
  rw [List.length_append, length_echoCommand, List.length_singleton]
  omega

/-! ### The session -/

/-- The source of commands is the script. -/
def Inputs.Scripted (E : Inputs) : Prop :=
  ∀ n source, E.command n source =
    scriptedNextCommand source.readPhase source.ordinal source.context

/-- The script always has a command that fits. -/
theorem Inputs.Scripted.fits {E : Inputs} (scripted : E.Scripted) : E.Fits := by
  intro n source
  rw [scripted]
  by_cases first : source.readPhase = 0
  · refine ⟨lsCommand, ?_, by decide, by decide, ?_⟩
    · rw [first]
      rfl
    · refine iff_of_false (not_not.mpr first) ?_
      rintro ⟨kind, face⟩
      have catalog : readCommand lsCommand = .catalog := by decide
      rw [catalog] at face
      cases face
  · obtain ⟨command, answer, shows⟩ := scripted_shows first source.ordinal source.context
    have length := length_of_shows shows
    exact ⟨command, answer, length.1, length.2,
      iff_of_true first ⟨_, readCommand_of_shows shows⟩⟩

variable {E : Outside} {as : List Role} {t : Network.State Role Msg Local}

/-- **The faces.**  In every run of a scripted session the driver has shown, cycle by cycle, the
face that is due for the cycle's second inputs. -/
theorem session_shows (lawful : E.Lawful) (scripted : E.toInputs.Scripted)
    (run : (session E).machine.exec start as = some t) {k : ℕ} (h : k < (shownFaces t).length) :
    (shownFaces t)[k] =
      dueFace (requestOf (E.texts (2 * k + 1))) (E.samples (2 * k + 1)) (.ofNat 8 k) := by
  have face := faces_of_exec lawful scripted.fits run h
  obtain ⟨-, phase, ordinal⟩ := sourceAt_phase E.toInputs k
  have answers :=
    (commandOf_fits scripted.fits (2 * k + 1) (sourceAt E.toInputs (2 * k + 1))).1
  have second : (heard E.toInputs (2 * k + 1) (sourceAt E.toInputs (2 * k + 1))).readPhase ≠ 0 := by
    rw [heard, phase]
    decide
  obtain ⟨command, answer, shows⟩ := scripted_shows second (.ofNat 8 k)
    (contextAt E.toInputs (2 * k + 1))
  rw [scripted] at answers
  have same : commandAt E.toInputs (2 * k + 1) = command := by
    refine Except.ok.inj (answers.symm.trans (Eq.trans ?_ answer))
    rw [← ordinal]
    rfl
  rw [same, readCommand_of_shows shows] at face
  exact (ShellCommand.face.inj face).symm

/-- A text of the human's, if it is one. -/
def spoken (bytes : List U8) : HumanInputText :=
  match HumanInputText.fromBytes bytes with
  | .ok text => text
  | .error _ => .empty

/-- A scripted session in which the human asks for an angry face at the second read of every cycle,
and the sensor has not been heard of. -/
def angryOutside : Outside :=
  outsideOf (fun n => if n % 2 = 1 then spoken (echoCommand (ascii ['a'])) else .empty)
    (fun _ => .pending 0) fun _ source =>
      scriptedNextCommand source.readPhase source.ordinal source.context

theorem session_shows_angry : ∃ as t, (session angryOutside).machine.exec start as = some t ∧
    (shownFaces t)[0]? = some faceAngry := by
  have lawful : angryOutside.Lawful := outsideOf_lawful _ _ _
  have scripted : angryOutside.toInputs.Scripted := fun _ _ => rfl
  have run := (session_talk lawful scripted.fits 1).exec fun _ => []
  have one : 0 < (facesUpTo angryOutside.toInputs 1).length := Nat.one_pos
  have due : dueFace (requestOf (angryOutside.texts 1)) (angryOutside.samples 1) 0 = faceAngry := by
    decide +kernel
  refine ⟨_, _, run, ?_⟩
  have shows := session_shows lawful scripted run one
  exact (List.getElem?_eq_getElem one).trans (congrArg some (shows.trans due))

end HibanaPico.UnoQ
