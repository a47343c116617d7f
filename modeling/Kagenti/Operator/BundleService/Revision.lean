import Kagenti.Lib.Outcome
import Kagenti.Operator.BundleService.ETag

/-!
The archive that `Build` writes, entry by entry, and the revision in its manifest, the hash of what
the gzip writer has emitted before it.
-/

namespace Kagenti.Operator.BundleService

open Go AgentRuntime

namespace TarWriter

variable {tar : TarFormat} {tw tw' : TarWriter} {headerError contentError : String} {entry : Policy}

theorem writeEntry_ok (ok : tw.writeEntry tar headerError contentError entry = .ok tw') :
    ∃ header, tar.header entry.path entry.content.length = .ok header ∧
      tw' = ⟨tw.out ++ zeros tw.pad ++ header ++ entry.content, 0,
        blockPadding entry.content.length⟩ := by
  unfold writeEntry writeHeader write at ok
  cases hheader : tar.header entry.path entry.content.length with
  | error e => simp [hheader, bind, Except.bind, Except.mapError] at ok
  | ok header =>
    refine ⟨header, rfl, ?_⟩
    simp only [hheader, bind, Except.bind, Except.mapError, pure, Except.pure] at ok
    by_cases directory : entry.path.getLast? = some Path.slash
    · cases hcontent : entry.content <;> simp_all
    · simp_all

inductive Holds (tar : TarFormat) : List Policy → TarWriter → Prop where
  | empty : Holds tar [] .empty
  | entry {entries : List Policy} {tw : TarWriter} {e : Policy} {header : Bytes} :
      Holds tar entries tw → tar.header e.path e.content.length = .ok header →
        Holds tar (entries ++ [e]) ⟨tw.out ++ zeros tw.pad ++ header ++ e.content, 0,
          blockPadding e.content.length⟩

variable {entries : List Policy} (holds : Holds tar entries tw)

include holds

theorem Holds.writeEntry (ok : tw.writeEntry tar headerError contentError entry = .ok tw') :
    Holds tar (entries ++ [entry]) tw' := by
  obtain ⟨header, hheader, rfl⟩ := writeEntry_ok ok
  exact holds.entry hheader

theorem Holds.length_le : entries.length * blockSize ≤ tw.out.length := by
  induction holds with
  | empty => simp
  | entry holds hheader ih =>
    have header := tar.block _ _ _ hheader
    simp only [List.length_append, List.length_cons, List.length_nil]
    rw [Nat.zero_add, Nat.succ_mul]
    omega

theorem Holds.out_eq_nil_iff : tw.out = [] ↔ entries = [] := by
  constructor
  · intro empty
    have length := holds.length_le
    rw [empty, List.length_nil, blockSize] at length
    exact List.eq_nil_of_length_eq_zero (by omega)
  · rintro rfl
    generalize hnone : ([] : List Policy) = none at holds
    cases holds with
    | empty => rfl
    | entry => simp at hnone

end TarWriter

namespace Builder

variable (b : Builder) {l l' : List Policy} {tw tw' : TarWriter}

theorem holds_foldlM {entries rest : List Policy} (holds : tw.Holds b.tar entries)
    (ok : rest.foldlM b.writePolicy tw = .ok tw') : tw'.Holds b.tar (entries ++ rest) := by
  induction rest generalizing entries tw with
  | nil =>
    cases ok
    simpa using holds
  | cons p rest ih =>
    rw [List.foldlM_cons] at ok
    cases hp : b.writePolicy tw p with
    | error e => simp [hp, bind, Except.bind] at ok
    | ok next =>
      rw [hp] at ok
      simpa using ih (holds.writeEntry hp) ok

theorem holds_writePolicies (ok : b.writePolicies l = .ok tw) :
    tw.Holds b.tar (b.sort.sort l) := by
  have valid : Valid l := by
    by_contra h
    rw [← forM_validatePath] at h
    unfold writePolicies at ok
    cases hvalidate : l.forM fun p => validatePath p.path with
    | error e => simp [hvalidate, bind, Except.bind] at ok
    | ok u => exact h hvalidate
  rw [b.writePolicies_of_valid valid] at ok
  simpa using b.holds_foldlM .empty ok

def archive (l : List Policy) (tw : TarWriter) : List Policy :=
  b.sort.sort l ++ [manifestEntry (b.manifest tw)]

theorem build_archive {data : Bytes} {hash : String} (ok : b.build l = .ok (data, hash)) :
    ∃ tw tw' : TarWriter, b.writePolicies l = .ok tw ∧ tw'.Holds b.tar (b.archive l tw) ∧
      data = b.gzip.close tw'.close := by
  unfold build at ok
  cases hpolicies : b.writePolicies l with
  | error e => simp [hpolicies, bind, Except.bind] at ok
  | ok tw =>
    rw [hpolicies] at ok
    cases hmanifest : tw.writeEntry b.tar "writing manifest header" "writing manifest content"
        (manifestEntry (b.manifest tw)) with
    | error e => simp [hmanifest, bind, Except.bind] at ok
    | ok tw' =>
      simp only [hmanifest, bind, Except.bind, pure, Except.pure, Except.ok.injEq,
        Prod.mk.injEq] at ok
      exact ⟨tw, tw', rfl, (b.holds_writePolicies hpolicies).writeEntry hmanifest, ok.1.symm⟩

/-! The revision -/

/-- The builder with another gzip writer. -/
def withGzip (gzip : GzipWriter) : Builder := { b with gzip := gzip }

theorem out_eq_nil_iff (ok : b.writePolicies l = .ok tw) : tw.out = [] ↔ l = [] := by
  rw [(b.holds_writePolicies ok).out_eq_nil_iff, b.sort.sort_eq_nil]

/-- Where no block is full yet, the revision is the hash of the gzip header alone. -/
theorem revision_of_not_full (ok : b.writePolicies l = .ok tw) (policies : l ≠ [])
    (notFull : b.gzip.full tw.out = 0) :
    (b.manifest tw).revision = b.digest GzipWriter.header := by
  have written : tw.out ≠ [] := mt (b.out_eq_nil_iff ok).mp policies
  rw [manifest, GzipWriter.emitted, if_neg written, notFull, List.take_zero, b.gzip.blocks_nil,
    List.append_nil]

theorem revision_ne_of_empty (collisionFree : Function.Injective b.sha256)
    (ok : b.writePolicies l = .ok tw) (ok' : b.writePolicies [] = .ok tw') (policies : l ≠ []) :
    (b.manifest tw).revision ≠ (b.manifest tw').revision := by
  intro same
  have emitted : b.gzip.emitted tw.out = b.gzip.emitted tw'.out :=
    collisionFree (hexEncode_injective (sha256_text_inj same))
  rw [GzipWriter.emitted, GzipWriter.emitted, if_pos ((b.out_eq_nil_iff ok').mpr rfl),
    if_neg (mt (b.out_eq_nil_iff ok).mp policies)] at emitted
  cases emitted

end Builder

end Kagenti.Operator.BundleService
