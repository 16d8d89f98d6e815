import Backtest.Command.Session

/-!
# Runs of sessions

A session is run from a transcript and leaves a result and a longer transcript.  What it says and
what it asks of the host are taken apart here step by step (`run_bind`); a fault ends the run.

A command line that asks for the table in a file (`AsksFor`) and meets a fault in its bars ends by
it, after a few lines that name the file (`runWords_of_fault`).
-/

namespace Backtest.Command

variable {m : Type → Type} [Monad m] {β γ : Type} {transcript : Transcript}

namespace Session

/-- What a session leaves when it is run from a transcript. -/
def runFrom (transcript : Transcript) (session : Session m β) : m (Outcome β × Transcript) :=
  session.run.run transcript

/-- Goes on with a session, unless a fault has ended the one before it. -/
def goOn (next : β → Session m γ) : Outcome β × Transcript → m (Outcome γ × Transcript)
  | (.ok x, left) => (next x).runFrom left
  | (.error fault, left) => pure (.error fault, left)

theorem run_bind (session : Session m β) (next : β → Session m γ) :
    (session >>= next).runFrom transcript = session.runFrom transcript >>= goOn next := by
  refine congrArg (session.runFrom transcript >>= ·) (funext fun (result, left) => ?_)
  cases result with
  | ok x => rfl
  | error fault => rfl

variable [LawfulMonad m]

theorem run_ask_bind (question : m β) (next : β → Session m γ) :
    (ask question >>= next).runFrom transcript =
      question >>= fun answer => (next answer).runFrom transcript := by
  rw [run_bind]
  change (question >>= fun answer => pure (Except.ok answer, transcript)) >>= goOn next = _
  rw [bind_assoc]
  exact bind_congr fun answer => pure_bind _ _

theorem run_sayAll (lines : List String) :
    (sayAll lines : Session m Unit).runFrom transcript =
      pure (.ok (), { transcript with lines := transcript.lines ++ lines }) :=
  pure_bind _ _

theorem run_sayAll_bind (lines : List String) (next : Unit → Session m β) :
    (sayAll lines >>= next).runFrom transcript =
      (next ()).runFrom { transcript with lines := transcript.lines ++ lines } := by
  rw [run_bind, run_sayAll, pure_bind]
  rfl

theorem run_attemptWarned (found : Warned β) :
    (attemptWarned found : Session m β).runFrom transcript =
      pure (found.outcome,
        { transcript with warnings := transcript.warnings ++ found.warnings }) := by
  refine (run_bind (β := Unit) _ _).trans ?_
  exact (congrArg (· >>= _) (pure_bind _ _)).trans (pure_bind _ _)

end Session

open Session

variable [LawfulMonad m] {host : Host m} {request : Request Float}
variable {file text : String} {words : List String} {seed : Option String} {fault : Fault}

/-! ## The table in a file -/

/-- What is said before a file is read. -/
def loadingLines (file : String) : List String := ["", "[*] Loading data from " ++ file ++ "..."]

/-- The bars of the table in a text, by rows. -/
def barsOfText {α : Type} [Arith α] (text : String) (first last : Option String)
    (timeframe : String) : Outcome (List (Option (Bar α))) :=
  (Market.load text first last timeframe).outcome >>= Market.rowBars

theorem run_tableBars (hread : host.textOf file = pure (.ok text)) (form : Form Float)
    (transcript : Transcript) :
    ∃ warnings, (tableBars host form file).runFrom transcript =
      pure (barsOfText text form.first form.last form.timeframe,
        ⟨transcript.lines ++ loadingLines file, warnings⟩) := by
  refine ⟨transcript.warnings ++
    (Market.load (α := Float) text form.first form.last form.timeframe).warnings, ?_⟩
  rw [barsOfText, tableBars, run_sayAll_bind, run_ask_bind, hread, pure_bind]
  dsimp only
  rw [run_bind, run_attemptWarned, pure_bind]
  cases (Market.load (α := Float) text form.first form.last form.timeframe).outcome with
  | ok table => rfl
  | error fault => rfl

/-- A command line asks a host for the table in a file, and the file holds a text. -/
structure AsksFor (host : Host m) (words : List String) (seed : Option String)
    (request : Request Float) (file text : String) : Prop where
  words : ∃ n, defaultSeed seed = .ok n ∧ Request.ofWords words n = .ok request
  source : request.source = .table file
  read : host.textOf file = pure (.ok text)

/-- A session that stops while it takes the bars out of a table has not said more than which file
it loads. -/
theorem runWords_of_fault (hasks : AsksFor host words seed request file text)
    (hfault : (barsOfText text request.form.first request.form.last request.form.timeframe :
      Outcome (List (Option (Bar Float)))) = .error fault) :
    ∃ warnings, runWords host words seed =
      host.stopwatch >>= fun _ =>
        pure (.ofFault fault, ⟨banner ++ loadingLines file, warnings⟩) := by
  obtain ⟨n, hseed, hwords⟩ := hasks.words
  obtain ⟨warnings, hbars⟩ := run_tableBars hasks.read request.form ⟨banner, []⟩
  rw [hfault] at hbars
  -- The stopwatch is read before the bars are, and after the fault nothing is asked any more.
  have hperform : (perform host request).runFrom .empty = host.stopwatch >>= fun _ =>
      pure (.error fault, ⟨banner ++ loadingLines file, warnings⟩) := by
    rw [perform, run_sayAll_bind, run_ask_bind]
    refine bind_congr fun start => ?_
    rw [run_bind, barsOf, hasks.source]
    change (tableBars host request.form file).runFrom ⟨banner, []⟩ >>= _ = _
    rw [hbars, pure_bind]
    rfl
  refine ⟨warnings, ?_⟩
  rw [runWords, hseed]
  dsimp only
  rw [hwords]
  change (perform host request).runFrom .empty >>= _ = _
  rw [hperform, bind_assoc]
  refine bind_congr fun start => ?_
  rw [pure_bind]

end Backtest.Command
