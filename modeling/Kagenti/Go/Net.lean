import Kagenti.Go.Utf8

/-!
`net.SplitHostPort` and `net.JoinHostPort`.
-/

namespace Kagenti.Go

/-- Host and port of an address, where `net.SplitHostPort` gives no error. The port starts
after the last colon. A host with colons stands in brackets, and no other bracket is
allowed. -/
def splitHostPort (hostport : String) : Option (String × String) :=
  let cs := hostport.toList
  let port := (cs.reverse.takeWhile (· ≠ ':')).reverse
  let host := cs.take (cs.length - (port.length + 1))
  if ':' ∉ cs then none
  else
    match cs with
    | '[' :: rest =>
      let inner := rest.takeWhile (· ≠ ']')
      if host = '[' :: inner ++ [']'] ∧ '[' ∉ rest ∧ ']' ∉ port then
        some (String.ofList inner, String.ofList port)
      else none
    | _ =>
      if ':' ∉ host ∧ '[' ∉ cs ∧ ']' ∉ cs then some (String.ofList host, String.ofList port)
      else none

def joinHostPort (host port : String) : String :=
  if ':' ∈ host.toList then "[" ++ host ++ "]:" ++ port else host ++ ":" ++ port

example : splitHostPort "tools:8080" = some ("tools", "8080") ∧
    splitHostPort "[::1]:443" = some ("::1", "443") ∧ splitHostPort "::1" = none ∧
    splitHostPort "[::1]" = none ∧ splitHostPort "tools" = none := by
  decide +kernel

end Kagenti.Go
