import TextMode.Settings.Validation

/-!
# Sessions

A session has variables, perhaps a file of variables, and the settings that were
loaded first since the last clearing.  Those stay in force whatever happens to the
variables; a load that fails leaves nothing behind.
-/

namespace TextMode.Settings

structure Session where
  environment : Entries Text Text := []
  file : Option Text := none
  cached : Option Settings := none

inductive Step where
  | set (pairs : List (Text × Text))
  | unset (name : Text)
  | writeFile (content : Text)
  | clear
  | get

namespace Session

/-- The settings in force, loaded if there are none. -/
def get (session : Session) : Except Fault Settings :=
  match session.cached with
  | some settings => .ok settings
  | none => load session.environment session.file

/-- The session after a step. -/
def after (session : Session) : Step → Session
  | .set pairs =>
      { session with environment := Entries.insertAll pairs session.environment }
  | .unset name => { session with environment := Entries.erase name session.environment }
  | .writeFile content => { session with file := some content }
  | .clear => { session with cached := none }
  | .get =>
      match session.get with
      | .ok settings => { session with cached := some settings }
      | .error _ => session

/-- The answer to a step; only a get has one. -/
def answer (session : Session) : Step → Option (Except Fault Settings)
  | .get => some session.get
  | _ => none

/-- The answers to a list of steps. -/
def answers (session : Session) : List Step → List (Option (Except Fault Settings))
  | [] => []
  | step :: steps => session.answer step :: answers (session.after step) steps

end Session

end TextMode.Settings
