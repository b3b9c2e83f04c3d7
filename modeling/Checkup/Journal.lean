import Checkup.CodeText

/-!
# Journals

A computation that leaves a trace: messages, questions put to the version control system and calls
of analyzers, in the order in which they happened.
-/

namespace Checkup

inductive Level where
  | debug
  | warning

inductive Event where
  | message (level : Level) (text : CodeText)
  | git (directory : String) (arguments : List String)
  /-- A call of the analyzer at a position, for some paths or for the whole project. -/
  | analyzer (position : Nat) (paths : Option (List CodeText))

/-- A result and what happened on the way to it. -/
structure Journaled (α : Type) where
  value : α
  events : List Event := []

namespace Journaled

instance : Monad Journaled where
  pure value := ⟨value, []⟩
  bind step next := ⟨(next step.value).value, step.events ++ (next step.value).events⟩

def note (event : Event) : Journaled Unit := ⟨(), [event]⟩

def debug (text : CodeText) : Journaled Unit := note (.message .debug text)

/-- A message about something that went wrong and was passed over. -/
def warn (text : CodeText) : Journaled Unit := note (.message .warning text)

def collect (step : α → Journaled (List β)) (items : List α) : Journaled (List β) :=
  ⟨items.flatMap fun item => (step item).value, items.flatMap fun item => (step item).events⟩

end Journaled

end Checkup
