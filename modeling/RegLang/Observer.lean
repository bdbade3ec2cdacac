import RegLang.Event

/-!
This module contains what becomes of reported events: they are dropped, kept by a recorder or
printed.
-/

namespace RegLang

structure Recorder where
  events : List Event := []
  deriving Repr, DecidableEq

namespace Recorder

def observe (r : Recorder) (e : Event) : Recorder := ⟨r.events ++ [e]⟩

def take (r : Recorder) : List Event × Recorder := (r.events, ⟨[]⟩)

end Recorder

inductive Observer where
  | noop
  | recorder
  | console
  deriving Repr, DecidableEq

namespace Observer

def name : Observer → String
  | noop => "noop"
  | recorder => "recorder"
  | console => "console"

def consoleLine (e : Event) : String := "    · " ++ e.text ++ "\n"

def printed (o : Observer) (events : List Event) : String :=
  match o with
  | console => String.join (events.map consoleLine)
  | noop | recorder => ""

end Observer

end RegLang
