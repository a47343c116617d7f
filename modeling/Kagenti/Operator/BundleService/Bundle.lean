import Mathlib.Algebra.GroupWithZero.Nat
import Mathlib.Data.List.Infix
import Kagenti.Go.Path
import Kagenti.Operator.AgentRuntime.HashFaithfulness
import Kagenti.Operator.BundleService.Policies

/-!
The bundle of a list of policies (`bundleservice/bundle`): `ContentHash`, which becomes its ETag,
and `Build`. SHA-256, the header blocks of `archive/tar` and the compression of `compress/gzip` are
parameters; when they write what is modelled.
-/

namespace Kagenti.Operator.BundleService

open Go AgentRuntime

/-- `bundle.Policy`, whose strings can hold any bytes. -/
structure Policy where
  path : Bytes
  content : Bytes
  deriving DecidableEq

def PolicyEntry.policy (e : PolicyEntry) : Policy := ⟨bytes e.path, bytes e.content⟩

/-! Sorting -/

structure PathSort where
  order : List Bytes → List Nat
  perm : ∀ paths, (order paths).Perm (List.range paths.length)
  sorted : ∀ paths, ((order paths).map (paths.getD · [])).Pairwise (· ≤ ·)

namespace PathSort

def sort (S : PathSort) (l : List Policy) : List Policy :=
  (S.order (l.map (·.path))).map (l.getD · ⟨[], []⟩)

/-- Insertion sort, which is what `sort.Slice` does with a dozen elements or fewer. -/
def insertion : PathSort where
  order paths := (List.range paths.length).insertionSort fun i j => paths.getD i [] ≤ paths.getD j []
  perm _ := List.perm_insertionSort _ _
  sorted paths := by
    have : Std.Total fun i j : Nat => paths.getD i [] ≤ paths.getD j [] :=
      ⟨fun _ _ => List.le_total _ _⟩
    have : IsTrans Nat fun i j => paths.getD i [] ≤ paths.getD j [] :=
      ⟨fun _ _ _ => List.le_trans⟩
    rw [List.pairwise_map]
    exact List.pairwise_insertionSort _ _

theorem map_range_getD {α : Type*} (l : List α) (d : α) :
    (List.range l.length).map (l.getD · d) = l := by
  refine List.ext_getElem (by simp) fun i _ h => ?_
  simp [List.getElem?_eq_getElem h]

variable (S : PathSort) {l l' : List Policy}

theorem sort_perm (l : List Policy) : (S.sort l).Perm l := by
  have moved := (S.perm (l.map (·.path))).map (l.getD · ⟨[], []⟩)
  rwa [List.length_map, map_range_getD] at moved

theorem map_path_sort (l : List Policy) :
    (S.sort l).map (·.path) = (S.order (l.map (·.path))).map ((l.map (·.path)).getD · []) := by
  rw [sort, List.map_map]
  refine List.map_congr_left fun i _ => ?_
  cases h : l[i]? <;> simp [h]

theorem sort_sorted (l : List Policy) : (S.sort l).Pairwise fun p q => p.path ≤ q.path := by
  have paths := S.sorted (l.map (·.path))
  rw [← map_path_sort, List.pairwise_map] at paths
  exact paths

@[simp] theorem sort_nil : S.sort [] = [] := (S.sort_perm []).eq_nil

@[simp] theorem sort_singleton (p : Policy) : S.sort [p] = [p] :=
  List.perm_singleton.mp (S.sort_perm [p])

@[simp] theorem sort_eq_nil : S.sort l = [] ↔ l = [] :=
  ⟨fun h => ((S.sort_perm l).symm.trans (by rw [h])).eq_nil, fun h => by rw [h, sort_nil]⟩

end PathSort

/-! The hash -/

/-- What `ContentHash` writes for one policy: both parts, each with a NUL byte after it. -/
def Policy.written (p : Policy) : Bytes := p.path ++ 0 :: (p.content ++ [0])

def contentHash (sha256 : Bytes → Bytes) (S : PathSort) (policies : List Policy) : String :=
  if policies = [] then "sha256:empty"
  else "sha256:" ++ hexEncode (sha256 ((S.sort policies).flatMap Policy.written))

/-! The archive -/

def containsDotDot (path : Bytes) : Bool := decide (Path.dotDot <:+: path)

def validatePath (path : Bytes) : Except String Unit :=
  if path = [] then .error "empty policy path"
  else if path.head? = some Path.slash then .error ("absolute path not allowed: " ++ text path)
  else if containsDotDot path then .error ("path traversal not allowed: " ++ text path)
  else if Path.dotDot <+: Path.clean path then .error ("path escapes bundle root: " ++ text path)
  else .ok ()

def blockSize : Nat := 512

structure TarFormat where
  header : Bytes → Nat → Except String Bytes
  block : ∀ name size h, header name size = .ok h → blockSize ≤ h.length

def zeros (n : Nat) : Bytes := List.replicate n 0

def padTo (n : Nat) (field : Bytes) : Bytes := field ++ zeros (n - field.length)

theorem le_length_padTo (n : Nat) (field : Bytes) : n ≤ (padTo n field).length := by
  simp only [padTo, zeros, List.length_append, List.length_replicate]
  omega

/-- `formatOctal`: the digits with zeros before them and a NUL byte after them. -/
def octal (width n : Nat) : Bytes :=
  let digits := bytes (String.ofList (Nat.toDigits 8 n))
  List.replicate (width - 1 - digits.length) 0x30 ++ digits ++ [0]

/-- One USTAR block, which has the sum of its own bytes in it. -/
def ustarBlock (name : Bytes) (size : Nat) : Bytes :=
  let front := padTo 100 name ++ octal 8 0o644 ++ octal 8 0 ++ octal 8 0 ++ octal 12 size ++
    octal 12 0
  let back := [if name.getLast? = some Path.slash then 0x35 else 0x30] ++ zeros 100 ++
    bytes "ustar" ++ [0] ++ bytes "00" ++ zeros 64 ++ octal 8 0 ++ octal 8 0
  let sum := ((front ++ List.replicate 8 0x20 ++ back).map UInt8.toNat).sum
  padTo blockSize (front ++ octal 7 sum ++ [0x20] ++ back)

/-- The headers of names that fit into one block. -/
def TarFormat.ustar : TarFormat where
  header name size :=
    if name.length ≤ 100 ∧ (name.all fun c => 0 < c && c < 0x80) ∧ size < 8 ^ 11 then
      .ok (ustarBlock name size)
    else .error "archive/tar: cannot encode header"
  block name size h ok := by
    split at ok
    · cases ok
      exact le_length_padTo _ _
    · cases ok

structure TarWriter where
  out : Bytes
  remaining : Nat
  pad : Nat
  deriving DecidableEq

def blockPadding (size : Nat) : Nat := (blockSize - size % blockSize) % blockSize

namespace TarWriter

def empty : TarWriter := ⟨[], 0, 0⟩

def writeHeader (tar : TarFormat) (tw : TarWriter) (name : Bytes) (size : Nat) :
    Except String TarWriter := do
  let header ← tar.header name size
  -- a directory has no content, whatever the size in its header
  let size := if name.getLast? = some Path.slash then 0 else size
  return ⟨tw.out ++ zeros tw.pad ++ header, size, blockPadding size⟩

def write (tw : TarWriter) (content : Bytes) : Except String TarWriter :=
  if tw.remaining < content.length then .error "archive/tar: write too long"
  else .ok { tw with out := tw.out ++ content, remaining := tw.remaining - content.length }

def writeEntry (tar : TarFormat) (headerError contentError : String) (tw : TarWriter)
    (entry : Policy) : Except String TarWriter := do
  let tw ← (tw.writeHeader tar entry.path entry.content.length).mapError (headerError ++ ": " ++ ·)
  (tw.write entry.content).mapError (contentError ++ ": " ++ ·)

def close (tw : TarWriter) : Bytes := tw.out ++ zeros tw.pad ++ zeros (2 * blockSize)

end TarWriter

structure GzipWriter where
  full : Bytes → Nat
  blocks : Bytes → Bytes
  finish : Bytes → Bytes
  full_of_short : ∀ input, input.length < 2 ^ 14 → full input = 0
  blocks_nil : blocks [] = []

namespace GzipWriter

/-- A writer that does not compress, with blocks of that many bytes. -/
def stored (size : Nat) (large : 2 ^ 14 ≤ size) : GzipWriter where
  full input := input.length / size * size
  blocks := id
  finish input := input.drop (input.length / size * size)
  full_of_short input short := by rw [Nat.div_eq_of_lt (short.trans_le large), Nat.zero_mul]
  blocks_nil := rfl

def header : Bytes := [0x1F, 0x8B, 8, 0, 0, 0, 0, 0, 0, 0xFF]

def emitted (gz : GzipWriter) (input : Bytes) : Bytes :=
  if input = [] then [] else header ++ gz.blocks (input.take (gz.full input))

def close (gz : GzipWriter) (input : Bytes) : Bytes :=
  header ++ gz.blocks (input.take (gz.full input)) ++ gz.finish input

end GzipWriter

structure Manifest where
  revision : String
  roots : List String
  deriving DecidableEq

def Manifest.marshal (m : Manifest) : Bytes :=
  bytes (Json.marshal (.obj [("revision", .str m.revision), ("roots", .arr (m.roots.map .str))]))

structure Builder where
  sha256 : Bytes → Bytes
  sort : PathSort
  tar : TarFormat
  gzip : GzipWriter

namespace Builder

def uncompressed (sha256 : Bytes → Bytes) : Builder :=
  ⟨sha256, .insertion, .ustar, .stored (2 ^ 14) (Nat.le_refl _)⟩

variable (b : Builder)

def contentHash (policies : List Policy) : String :=
  BundleService.contentHash b.sha256 b.sort policies

def digest (data : Bytes) : String := "sha256:" ++ hexEncode (b.sha256 data)

def writePolicy (tw : TarWriter) (p : Policy) : Except String TarWriter :=
  tw.writeEntry b.tar ("writing tar header for " ++ text p.path)
    ("writing tar content for " ++ text p.path) p

def writePolicies (policies : List Policy) : Except String TarWriter := do
  policies.forM fun p => validatePath p.path
  (b.sort.sort policies).foldlM b.writePolicy .empty

/-- The manifest, from the state of the writers after the policies. -/
def manifest (tw : TarWriter) : Manifest where
  revision := b.digest (b.gzip.emitted tw.out)
  roots := ["authbridge"]

def manifestEntry (m : Manifest) : Policy := ⟨bytes ".manifest", m.marshal⟩

def build (policies : List Policy) : Except String (Bytes × String) := do
  let tw ← b.writePolicies policies
  let tw ← tw.writeEntry b.tar "writing manifest header" "writing manifest content"
    (manifestEntry (b.manifest tw))
  let data := b.gzip.close tw.close
  return (data, b.digest data)

end Builder

end Kagenti.Operator.BundleService
