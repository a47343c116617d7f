import Kagenti.Go.Http

/-!
Server-sent events as the listeners read and write them
(`listener/internal/sseframe/reader.go`, `writeSSEFrame` in `forwardproxy/server.go`).
-/

namespace Kagenti.AuthBridge

open Go

namespace Sse

def lf : UInt8 := 0x0A

def cr : UInt8 := 0x0D

def colon : UInt8 := 0x3A

def space : UInt8 := 0x20

/-- Why `ReadFrame` gives no further frame. -/
inductive ReadError where
  | eof
  | frameTooLarge
  | read
  deriving DecidableEq

structure Incoming where
  bytes : Bytes
  failed : Bool

/-- The lines that `readLine` returns one after the other, and the error it ends with;
`line` is what has been read of the current one. -/
def readLines (maxSize : Nat) (failed : Bool) (line : Bytes) : Bytes → List Bytes × ReadError
  | [] =>
    if failed then ([], .read)
    else if line = [] then ([], .eof)
    else ([line], .eof)
  | b :: rest =>
    if b = lf then
      let (lines, err) := readLines maxSize failed [] rest
      (line :: lines, err)
    else if b = cr then
      -- a line feed right behind the carriage return belongs to the same terminator
      match rest with
      | [] =>
        let (lines, err) := readLines maxSize failed [] []
        (line :: lines, err)
      | next :: rest' =>
        let (lines, err) :=
          if next = lf then readLines maxSize failed [] rest'
          else readLines maxSize failed [] (next :: rest')
        (line :: lines, err)
    else if maxSize < line.length + 1 then ([], .frameTooLarge)
    else readLines maxSize failed (line ++ [b]) rest

def splitField (line : Bytes) : Bytes × Bytes :=
  match line.dropWhile (· ≠ colon) with
  | [] => (line, [])
  | _ :: value =>
    (line.takeWhile (· ≠ colon),
      match value with
      | b :: rest => if b = space then rest else value
      | [] => [])

/-- The frames that `ReadFrame` returns one after the other on these lines, and the error it
ends with. `scratch` is the data of the current event, once it has some. -/
def readFrames (maxSize : Nat) (err : ReadError) (scratch : Option Bytes) :
    List Bytes → List Bytes × ReadError
  | [] =>
    match err, scratch with
    | .eof, some data => ([data], .eof)
    | _, _ => ([], err)
  | line :: rest =>
    if line = [] then
      match scratch with
      | some data =>
        let (frames, err) := readFrames maxSize err none rest
        (data :: frames, err)
      | none => readFrames maxSize err none rest
    else if line.head? = some colon then readFrames maxSize err scratch rest
    else
      let (field, value) := splitField line
      if field ≠ bytes "data" then readFrames maxSize err scratch rest
      else
        let data := (scratch.elim [] fun data => data ++ [lf]) ++ value
        if maxSize < data.length then ([], .frameTooLarge)
        else readFrames maxSize err (some data) rest

def frames (maxSize : Nat) (body : Incoming) : List Bytes × ReadError :=
  let (lines, err) := readLines maxSize body.failed [] body.bytes
  readFrames maxSize err none lines

/-- `writeSSEFrame`: a frame as `data:` lines; `begun` tells that a line is not finished. -/
def writeLines (begun : Bool) : Bytes → Bytes
  | [] => if begun then [lf] else []
  | b :: rest =>
    if b = lf then (if begun then [] else bytes "data: ") ++ lf :: writeLines false rest
    else (if begun then [] else bytes "data: ") ++ b :: writeLines true rest

def writeSSEFrame (frame : Bytes) : Bytes := writeLines false frame ++ [lf]

/-- What the writer makes of a frame without line feeds is read as that frame again. -/
example : frames 64 ⟨writeSSEFrame (bytes "a: b") ++ writeSSEFrame (bytes "c\nd"), false⟩ =
    ([bytes "a: b", bytes "c\nd"], .eof) := by decide +kernel

end Sse

end Kagenti.AuthBridge
