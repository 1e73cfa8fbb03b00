import A3Net.Proof.Blobstore.BaoBinding

namespace A3Net.Blobstore

open Machine Cryptography List

namespace BaoTreeBuilder

/-- The leaves hold the whole chunks of the content, and the buffer holds the rest. -/
def Buffers (builder : BaoTreeBuilder) (content : Bytes) : Prop :=
  ∃ done, content = done ++ builder.chunkBuf ∧ chunkSize ∣ done.length ∧
    builder.chunkBuf.length < chunkSize ∧
    (builder.leaves, builder.currentOffset) = (pieces chunkSize done).foldl BaoTree.pushLeaf ([], 0)

variable {builder : BaoTreeBuilder} {content : Bytes}

theorem emit_leaves {done : Bytes} (whole : chunkSize ∣ done.length)
    (nonempty : builder.chunkBuf ≠ []) (short : builder.chunkBuf.length ≤ chunkSize)
    (leaves : (builder.leaves, builder.currentOffset) =
      (pieces chunkSize done).foldl BaoTree.pushLeaf ([], 0)) :
    (builder.emit.leaves, builder.emit.currentOffset) =
      (pieces chunkSize (done ++ builder.chunkBuf)).foldl BaoTree.pushLeaf ([], 0) := by
  rw [pieces_concat chunkSize_pos whole nonempty short, foldl_append, ← leaves]
  rfl

section

variable (buffers : Buffers builder content)
include buffers

/-- Each round moves bytes into the buffer, and a full buffer becomes a leaf. -/
theorem Buffers.writeLoop {bound : Nat} {remaining : Bytes} (enough : remaining.length ≤ bound) :
    Buffers (writeLoop bound builder remaining) (content ++ remaining) := by
  induction bound generalizing builder content remaining with
  | zero =>
    rw [length_eq_zero_iff.mp (Nat.le_zero.mp enough), append_nil]
    exact buffers
  | succ bound ih =>
    rcases eq_or_ne remaining [] with rfl | nonempty
    · rw [append_nil]
      exact buffers
    rw [BaoTreeBuilder.writeLoop]
    · obtain ⟨done, rfl, whole, room, leaves⟩ := buffers
      have some_ := length_pos_iff.mpr nonempty
      generalize count : min (chunkSize - builder.chunkBuf.length) remaining.length = take
      have length : (builder.chunkBuf ++ remaining.take take).length =
          builder.chunkBuf.length + take := by
        rw [length_append, length_take]
        omega
      have moved : done ++ builder.chunkBuf ++ remaining =
          done ++ (builder.chunkBuf ++ remaining.take take) ++ remaining.drop take := by
        simp only [append_assoc, take_append_drop]
      rw [moved]
      refine ih ?_ (by rw [length_drop]; omega)
      dsimp only
      split_ifs with full
      · refine ⟨_, (append_nil _).symm, ?_, chunkSize_pos,
          emit_leaves whole ?_ (Nat.le_of_eq full) leaves⟩
        · rw [length_append, full]
          exact Nat.dvd_add whole (Nat.dvd_refl _)
        · exact length_pos_iff.mp (by rw [full]; exact chunkSize_pos)
      · exact ⟨done, rfl, whole, by dsimp only; omega, leaves⟩
    · exact nonempty

theorem Buffers.write (buf : Bytes) : Buffers (builder.write buf) (content ++ buf) :=
  buffers.writeLoop (Nat.le_refl _)

theorem Buffers.finish : builder.finish = BaoTree.build content := by
  obtain ⟨done, rfl, whole, room, leaves⟩ := buffers
  have flushed : ((if builder.chunkBuf.isEmpty then builder else builder.emit).leaves,
      (if builder.chunkBuf.isEmpty then builder else builder.emit).currentOffset) =
      (pieces chunkSize (done ++ builder.chunkBuf)).foldl BaoTree.pushLeaf ([], 0) := by
    split_ifs with empty
    · rw [isEmpty_iff.mp empty, append_nil]
      exact leaves
    · exact emit_leaves whole (fun nil => empty (isEmpty_iff.mpr nil)) (Nat.le_of_lt room) leaves
  rw [BaoTree.build, ← flushed]
  rfl

end

/-- However the content is split into writes, the builder ends with the tree of the whole. -/
theorem builder_finish (writes : List Bytes) : ∃ tree,
    (writes.foldl write {}).finish = some tree ∧ BaoTree.build writes.flatten = some tree := by
  have start : Buffers {} [] := ⟨[], rfl, Nat.dvd_zero _, chunkSize_pos, rfl⟩
  have run : ∀ (writes : List Bytes) (builder : BaoTreeBuilder) (content : Bytes),
      Buffers builder content →
        Buffers (writes.foldl write builder) (content ++ writes.flatten) := by
    intro writes
    induction writes with
    | nil => simp
    | cons buf rest ih =>
      intro builder content buffers
      rw [foldl_cons, flatten_cons, ← append_assoc]
      exact ih _ _ (buffers.write buf)
  obtain ⟨tree, built, -⟩ := BaoTree.build_spec writes.flatten
  exact ⟨tree, (run writes {} [] start).finish.trans built, built⟩

end BaoTreeBuilder
end A3Net.Blobstore
