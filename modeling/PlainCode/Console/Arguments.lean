/-!
# Arguments of the command line

The arguments say which language code is written in, which file is converted, and whether debugging
is on. Of several languages the last one counts, of several files the first.
-/

namespace PlainCode.Console

/-- What the arguments ask for. -/
structure Arguments where
  debug : Bool := false
  language : String := "python"
  path : Option String := none
  deriving DecidableEq, Repr

namespace Arguments

/-- Takes in an argument that stands alone: one that does not begin with a dash is a file. -/
def see (a : Arguments) (arg : String) : Arguments :=
  if arg.toList.head? = some '-' then a else { a with path := a.path.or (some arg) }

/-- Takes in the arguments from the left. `--lang` takes the argument behind it along, whatever that
is. -/
def scan (a : Arguments) : List String → Arguments
  | [] => a
  | [arg] => a.see arg
  | arg :: next :: rest =>
    if arg = "--lang" then scan { a with language := next } rest
    else scan (a.see arg) (next :: rest)

/-- What arguments ask for. Debugging is on wherever its switch stands. -/
def read (args : List String) : Arguments :=
  scan { debug := args.contains "--debug" || args.contains "-d" } args

end Arguments

end PlainCode.Console
