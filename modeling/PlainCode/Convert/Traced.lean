import PlainCode.Code.Statement
import PlainCode.Json.Basic

/-!
# Conversions at work

A conversion is done in a session, which says whether debugging is on. On its way it may write
entries to a stream, behind those that are on the stream already, and it may fail midway. What it
has written by then stays there.

Nothing keeps a conversion from doing one thing with debugging and another one without, or from
looking at what is on the stream. That none does is left to be proved.
-/

namespace PlainCode.Convert

/-- A session. All that it keeps between two conversions is whether debugging is on. -/
structure Session where
  debug : Bool := false
  deriving DecidableEq, Repr

/-- Why a conversion fails: its code cannot be written, or the value that it is given cannot. -/
inductive Failure where
  | code (cause : Code.Error)
  | tooLong
  deriving DecidableEq, Repr

/-- The wording of a failure. -/
def Failure.message : Failure → String
  | .code cause => cause.message
  | .tooLong => Json.tooLong

/-- A conversion, or a stretch of one: from a session and the entries on the stream to what it comes
to and the entries that are on the stream then. -/
structure Traced (α : Type) where
  run : Session → List String → Except Failure α × List String

namespace Traced

variable {α : Type}

instance : Monad Traced where
  pure a := ⟨fun _ stream => (.ok a, stream)⟩
  bind m f := ⟨fun s stream =>
    match m.run s stream with
    | (.ok a, stream) => (f a).run s stream
    | (.error e, stream) => (.error e, stream)⟩

/-- Writes entries to the stream. -/
def write (entries : List String) : Traced Unit := ⟨fun _ stream => (.ok (), stream ++ entries)⟩

/-- Does something if debugging is on, and nothing otherwise. -/
def whenDebug (m : Traced Unit) : Traced Unit :=
  ⟨fun s stream => if s.debug then m.run s stream else (.ok (), stream)⟩

/-- Writes entries to the stream if debugging is on. -/
def trace (entries : List String) : Traced Unit := whenDebug (write entries)

/-- Goes on with what there is, or fails. -/
def ofExcept (result : Except Failure α) : Traced α := ⟨fun _ stream => (result, stream)⟩

/-- The text of a value, if it can be written. -/
def textOf (text? : Option String) : Traced String :=
  ofExcept (text?.elim (.error .tooLong) .ok)

/-- The code, if it can be written. -/
def codeOf (code : Except Code.Error String) : Traced String := ofExcept (code.mapError .code)

/-- What something comes to in a session without debugging, if nothing was done before. -/
def result (m : Traced α) : Except Failure α := (m.run ⟨false⟩ []).1

/-- The entries that something writes in a session with debugging, if nothing was done before. -/
def entries (m : Traced α) : List String := (m.run ⟨true⟩ []).2

end Traced

end PlainCode.Convert
