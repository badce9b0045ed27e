import Patchbay.Proofs.Command.Run

/-!
# How the command ends

The command ends with code 0 after its page has been opened and all its triggers fired, and with
code 1 and no output when the file cannot be read or when the library refuses the document or an
argument. There are two ways to end without a code: the log cannot be set up, and then the file is
not looked at; or the file has been read and its bytes are no text (`Command.run_ending`).
-/

namespace Patchbay.Command

/-- The text of a file, its lines all ended alike, if the file can be read and decoded. -/
def File.text? : File → Option String
  | .unreadable _ => none
  | .content bytes =>
    (String.fromUTF8? bytes).map fun text => String.ofList (unifyLineEnds text.toList)

/-- A file that can be read, but whose bytes are no text. -/
def File.Undecodable (file : File) : Prop :=
  ∃ bytes, file = .content bytes ∧ String.fromUTF8? bytes = none

/-- What opening a page from a text comes to at the start of the command. -/
def opened (settings : Settings) (text : String) (e : Engine) : Except Fault Unit × Engine :=
  e.openDocument settings.strictBindings (Document.ofText settings.limits false text)

/-- A run has ended regularly: with code 0, or with code 1 and nothing printed. -/
def Ends (ran : Except Crash Finish × Engine) : Prop :=
  ∃ finish, ran.1 = .ok finish ∧ (finish.code = 0 ∨ finish.code = 1) ∧
    (finish.code = 1 → finish.output = "")

/-- A run that ends with code 1 prints nothing. -/
theorem ends_of_refused {ran : Except Crash Finish × Engine} (refused : ran.1 = .ok ⟨1, ""⟩) :
    Ends ran :=
  ⟨⟨1, ""⟩, refused, .inr rfl, fun _ => rfl⟩

section

variable {settings : Settings} {bytes : ByteArray} {text : String} {e page : Engine}

theorem File.text?_content (decoded : String.fromUTF8? bytes = some text) :
    (File.content bytes).text? = some (String.ofList (unifyLineEnds text.toList)) := by
  simp only [text?, decoded, Option.map_some]

/-- A document that is refused ends the command with code 1. -/
theorem runFile_refused (decoded : String.fromUTF8? bytes = some text) {cause : Invalid}
    (refused : (opened settings (String.ofList (unifyLineEnds text.toList)) e).1 =
      .error (.invalid cause)) (args : List String) :
    (runFile settings (.content bytes) args e).1 = .ok ⟨1, ""⟩ := by
  simp only [opened] at refused
  simp only [runFile, decoded, runPage]
  cases opens : e.openDocument settings.strictBindings (Document.ofText settings.limits false
      (String.ofList (unifyLineEnds text.toList))) with
  | mk result page =>
    rw [opens] at refused
    cases refused
    rfl

/-- Once a page has been opened and no argument is refused, the store is printed. -/
theorem runFile_printed {firstId : Nat} {random : Nat → Nat → Binary64}
    (decoded : String.fromUTF8? bytes = some text)
    (opens : opened settings (String.ofList (unifyLineEnds text.toList))
      (start settings firstId random) = (.ok (), page)) {args : List String}
    (formed : ∀ arg ∈ args, WellFormed arg) :
    Prints (runFile settings (.content bytes) args (start settings firstId random)) := by
  have blank := start_blank settings firstId random
  obtain ⟨document, reads, onBoard⟩ := Engine.opened_of_text blank opens
  have loop : page.shared.loop = true := by
    cases read : Document.ofText settings.limits false
        (String.ofList (unifyLineEnds text.toList)) with
    | error cause =>
      rw [opened, read] at opens
      cases congrArg Prod.fst opens
    | ok document =>
      rw [opened, read] at opens
      exact loop_of_opens opens
  have firing := onBoard.firing loop
  have unasked : page.targets = [] := congrArg (List.map Task.target) onBoard.fresh.tasks
  exact (runFile_prints decoded opens reads.encodable firing unasked firing (onBoard.twin onBoard)
    formed).1

end

/-- How a run of the command ends that has its log, by its file and its arguments. -/
structure Ending (file : File) (opens : String → Prop) (args : List String)
    (ran : Except Crash Finish × Engine) : Prop where
  ends : ¬file.Undecodable → Ends ran
  /-- The one way in which the command ends without a code. -/
  escapes : file.Undecodable → ran.1 = .error .undecodable
  succeeds : (∃ finish, ran.1 = .ok finish ∧ finish.code = 0) ↔
    (∃ text, file.text? = some text ∧ opens text) ∧ ∀ arg ∈ args, WellFormed arg

/-- A refusal is an end with code 1 where nothing could succeed. -/
theorem Ending.of_refused {file : File} {opens : String → Prop} {args : List String}
    {ran : Except Crash Finish × Engine} (refused : ran.1 = .ok ⟨1, ""⟩)
    (decodable : ¬file.Undecodable)
    (fails : ¬((∃ text, file.text? = some text ∧ opens text) ∧ ∀ arg ∈ args, WellFormed arg)) :
    Ending file opens args ran := by
  refine ⟨fun _ => ends_of_refused refused, fun bad => absurd bad decodable, ?_⟩
  constructor
  · rintro ⟨finish, ends, zero⟩
    cases refused.symm.trans ends
    cases zero
  · exact fun succeeds => absurd succeeds fails

section

variable {settings : Settings} {firstId : Nat} {random : Nat → Nat → Binary64}

/-- The text of a file is opened or refused, and then the arguments decide. -/
theorem Ending.of_decoded {bytes : ByteArray} {text : String}
    (decoded : String.fromUTF8? bytes = some text)
    (outcome : (opened settings (String.ofList (unifyLineEnds text.toList))
        (start settings firstId random)).1 = .ok () ∨
      ∃ cause, (opened settings (String.ofList (unifyLineEnds text.toList))
        (start settings firstId random)).1 = .error (.invalid cause))
    (args : List String) :
    Ending (.content bytes)
      (fun text => (opened settings text (start settings firstId random)).1 = .ok ()) args
      (runFile settings (.content bytes) args (start settings firstId random)) := by
  have own := File.text?_content decoded
  have decodable : ¬(File.content bytes).Undecodable := by
    rintro ⟨_, ⟨⟩, bad⟩
    cases decoded.symm.trans bad
  rcases outcome with ok | ⟨cause, refused⟩
  · cases opens : opened settings (String.ofList (unifyLineEnds text.toList))
        (start settings firstId random) with
    | mk result page =>
      cases (congrArg Prod.fst opens).symm.trans ok
      by_cases formed : ∀ arg ∈ args, WellFormed arg
      · obtain ⟨line, -, -, printed⟩ := runFile_printed decoded opens formed
        exact ⟨fun _ => ⟨_, printed, .inl rfl, fun one => by cases one⟩,
          fun bad => absurd bad decodable, fun _ => ⟨⟨_, own, ok⟩, formed⟩,
          fun _ => ⟨_, printed, rfl⟩⟩
      · have malformed : ∃ arg ∈ args, ¬WellFormed arg := by simpa using formed
        exact .of_refused (runFile_refuses decoded opens malformed) decodable
          fun succeeds => formed succeeds.2
  · refine .of_refused (runFile_refused decoded refused args) decodable ?_
    rintro ⟨⟨other, found, ok⟩, -⟩
    cases own.symm.trans found
    cases refused.symm.trans ok

theorem runFile_ending {file : File}
    (opensOrRefused : ∀ text, file.text? = some text →
      (opened settings text (start settings firstId random)).1 = .ok () ∨
        ∃ cause, (opened settings text (start settings firstId random)).1 =
          .error (.invalid cause)) (args : List String) :
    Ending file (fun text => (opened settings text (start settings firstId random)).1 = .ok ())
      args (runFile settings file args (start settings firstId random)) := by
  cases file with
  | unreadable reason =>
    refine .of_refused rfl ?_ ?_
    · rintro ⟨bytes, ⟨⟩, -⟩
    · rintro ⟨⟨text, ⟨⟩, -⟩, -⟩
  | content bytes =>
    cases decoded : String.fromUTF8? bytes with
    | none =>
      have escaped : runFile settings (.content bytes) args (start settings firstId random) =
          (.error .undecodable, start settings firstId random) := by simp only [runFile, decoded]
      rw [escaped]
      refine ⟨fun decodable => absurd ⟨bytes, rfl, decoded⟩ decodable, fun _ => rfl, ?_⟩
      simp [File.text?, decoded]
    | some text =>
      exact .of_decoded decoded (opensOrRefused _ (File.text?_content decoded)) args

theorem run_of_unusable {cause : Log.Unusable} (refused : Log.threshold settings.logLevel =
    .error cause) (file : File) (args : List String) (e : Engine) :
    run settings file args e = (.error (.logging cause), e) := by
  have sink : (logSetup settings).sink = .error cause := by
    simp only [Log.Setup.sink, logSetup, refused, Except.map]
  rw [run, sink]

/-- Provided that a page is opened from the text of the file or refused by the library, a command
that has its log ends with code 0 or 1 and prints nothing with code 1, unless the bytes of the file
are no text. A level name that cannot be used for the log ends it before anything is done. -/
theorem run_ending {file : File}
    (opensOrRefused : ∀ text, file.text? = some text →
      (opened settings text (start settings firstId random)).1 = .ok () ∨
        ∃ cause, (opened settings text (start settings firstId random)).1 =
          .error (.invalid cause)) (args : List String) :
    (Log.Usable settings.logLevel →
      Ending file (fun text => (opened settings text (start settings firstId random)).1 = .ok ())
        args (run settings file args (start settings firstId random))) ∧
    ∀ cause, Log.threshold settings.logLevel = .error cause →
      run settings file args (start settings firstId random) =
        (.error (.logging cause), start settings firstId random) := by
  constructor
  · intro usable
    rw [run_of_usable usable]
    exact runFile_ending opensOrRefused args
  · intro cause refused
    exact run_of_unusable refused file args _

end

/-- The file of a page with a textbox whose input refreshes a chart. -/
def pollFile : File :=
  .content Engine.pollText.toUTF8

theorem run_ending_poll : pollOpened.1 = .ok () ∧ Log.Usable Settings.standard.logLevel ∧
    Ending pollFile
      (fun text => (opened .standard text (start .standard 0 fun _ _ => default)).1 = .ok ())
      pollArgs (run .standard pollFile pollArgs (start .standard 0 fun _ _ => default)) ∧
    ¬pollFile.Undecodable := by
  have computed : pollOpened.1.isOk = true := by decide +kernel
  have ok : pollOpened.1 = .ok () := Engine.eq_ok_of_isOk computed
  have usable : Log.Usable Settings.standard.logLevel := by decide +kernel
  have decoded : String.fromUTF8? Engine.pollText.toUTF8 = some Engine.pollText :=
    dif_pos Engine.pollText.isValidUTF8
  refine ⟨ok, usable, (run_ending (fun text found => ?_) pollArgs).1 usable, ?_⟩
  · rw [pollFile, File.text?_content decoded, Option.some.injEq] at found
    rw [← found]
    exact .inl ok
  · rintro ⟨bytes, ⟨⟩, bad⟩
    cases decoded.symm.trans bad

/-- A file of one byte that no text has. -/
def strayFile : File :=
  .content ⟨#[0xFF]⟩

/-- No text can be refused or opened here, and yet the command does not end with a code. -/
theorem stray_byte_escapes : strayFile.text? = none ∧
    (run .standard strayFile [] (start .standard 0 fun _ _ => default)).1 =
      .error .undecodable ∧
    ¬Ends (run .standard strayFile [] (start .standard 0 fun _ _ => default)) := by
  have bad : String.fromUTF8? ⟨#[0xFF]⟩ = none := by decide +kernel
  have escaped : (run .standard strayFile [] (start .standard 0 fun _ _ => default)).1 =
      .error .undecodable := by
    rw [run_of_usable (by decide +kernel)]
    simp only [runFile, strayFile, bad]
  refine ⟨by simp only [strayFile, File.text?, bad, Option.map_none], escaped, ?_⟩
  rintro ⟨finish, ends, -⟩
  cases escaped.symm.trans ends

end Patchbay.Command
