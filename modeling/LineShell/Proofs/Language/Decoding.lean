import LineShell.Proofs.Binary.Budget
import LineShell.Proofs.Language.Code

/-!
# Which bytes are the code of a program

The code of a program ends where the program ends: bytes behind it are ignored, and a
beginning of it is no code.  Other bytes than those that are written may be read as a
program too.  Such a program was paid for out of the limit like a written one, so its
own code is within the limit and is read back.
-/

namespace LineShell
namespace Language

open Binary Binary.Reader Text

theorem Stmt.sizes_eq_sum (stmts : List Stmt) : Stmt.sizes stmts = (stmts.map Stmt.size).sum := by
  induction stmts with
  | nil => rfl
  | cons stmt rest ih => rw [Stmt.sizes, ih, List.map_cons, List.sum_cons]

namespace Code

/-! ## What a program takes from the budget -/

theorem takes_part : Takes 0 part Part.size := by
  apply (takes_choice 2).bind
  intro index _ _ _
  have hpaid := takes_text.prepaid 4
  split
  · exact hpaid.map Part.lit fun _ => rfl
  · exact hpaid.map Part.var fun _ => rfl

theorem takes_word : Takes 0 word Word.size :=
  takes_sequence takes_part

theorem takes_words : Takes 0 words wordsSize :=
  takes_sequence takes_word

theorem takes_stream : Takes 0 stream fun _ => 4 := by
  apply (takes_choice 2).bind
  intro index _ _ _
  split
  · exact takes_pure (fun _ => 4) Stream.stdout
  · exact takes_pure (fun _ => 4) Stream.stderr

theorem takes_stmt (depth : Nat) : Takes 0 (stmt depth) Stmt.size := by
  induction depth with
  | zero => exact takes_fail _ _ _
  | succ depth ih =>
    apply (takes_choice 10).bind
    intro index _ _ _
    split
    · apply (takes_stream.prepaid 4).bind
      intro out _ _ _
      apply (takes_words.prepaid (4 + 4)).bind
      intro ws _ _ _
      rw [Nat.add_assoc]
      exact takes_pure Stmt.size (.echo out ws)
    · apply (takes_text.prepaid 4).bind
      intro name _ _ _
      apply (takes_words.prepaid (4 + textSize name)).bind
      intro ws _ _ _
      rw [Nat.add_assoc]
      exact takes_pure Stmt.size (.set name ws)
    · exact (takes_text.prepaid 4).map Stmt.unset fun _ => rfl
    · apply ((takes_option takes_word).prepaid 4).map Stmt.cd
      intro dir
      cases dir <;> rfl
    · exact takes_pure Stmt.size .succeed
    · exact takes_pure Stmt.size .markFailed
    · apply ((takes_option takes_int32).prepaid 4).map Stmt.exit
      intro code
      cases code <;> rfl
    · exact (takes_words.prepaid 4).map Stmt.fail fun _ => rfl
    · exact (takes_words.prepaid 4).map Stmt.abort fun _ => rfl
    · apply (takes_word32.prepaid 4).bind
      intro count _ _ _
      apply ((takes_sequence ih).prepaid (4 + 4)).bind
      intro body _ _ _
      rw [← Stmt.sizes_eq_sum, Nat.add_assoc]
      exact takes_pure Stmt.size (.loop count body)

/-! ## Deeper readings -/

/-- A bound on the depth is only ever too small: what is read under it is read under a
larger one as well. -/
theorem stmt_widens {depth deeper : Nat} (hdepth : depth ≤ deeper) :
    Widens (stmt depth) (stmt deeper) := by
  induction depth generalizing deeper with
  | zero =>
    intro input found hrun
    cases hrun
  | succ depth ih =>
    obtain ⟨deeper, rfl⟩ : ∃ n, deeper = n + 1 := ⟨deeper - 1, by omega⟩
    apply (Widens.refl _).bind
    intro index
    split
    -- Only the last of the ten choices, a repetition, looks at the depth.
    iterate 9 exact Widens.refl _
    apply (Widens.refl _).bind
    intro count
    apply (Widens.sequence (ih (by omega))).bind
    intro body
    exact Widens.refl _

end Code

namespace Program

theorem takes_program (depth : Nat) : Takes 0 (sequence (Code.stmt depth)) Program.size := by
  have hsize : Program.size = fun list => 8 + (list.map Stmt.size).sum := by
    funext program
    rw [Program.size, Stmt.sizes_eq_sum]
  rw [hsize]
  exact takes_sequence (Code.takes_stmt depth)

theorem size_le_limit_of_decode
    {code : Bytes} {program : Program} (hdecode : decode code = .ok program) :
    program.size ≤ limit :=
  (takes_program _).size_le_limit hdecode

/-- The bytes that a cut leaves allow for less depth than the whole code, which makes
no difference: at the depth of the whole code they cannot be read either. -/
theorem decode_of_cut
    {program : Program} {front : Bytes} (hfront : front <+: encode program)
    (hcut : front ≠ encode program) : ∃ e, decode front = .error e := by
  obtain ⟨back, hback, hne⟩ := exists_back_of_cut hfront hcut
  obtain ⟨e, he⟩ := (spells program []).decode_of_cut hback hne
  cases hdecode : decode front with
  | error e => exact ⟨e, rfl⟩
  | ok found =>
    have hlength : front.length + 1 ≤ (encode program ++ []).length + 1 := by
      rw [← hback]
      simp
    unfold decode Reader.decode at hdecode
    cases hrun : (sequence (Code.stmt (front.length + 1))).run ⟨front, limit⟩ with
    | error e =>
      rw [hrun] at hdecode
      cases hdecode
    | ok read =>
      have hdeep := (Widens.sequence (Code.stmt_widens hlength)) _ _ hrun
      rw [Reader.decode, hdeep] at he
      cases he

/-- Code of a program, whatever follows it, is read back as that program if it is within
the limit, and otherwise as none.  No beginning of it is code.  And whatever bytes a
program was read from, its own code is read back as that program. -/
theorem code_delimits_itself (program : Program) :
    (∀ rest, program.size ≤ limit → decode (encode program ++ rest) = .ok program) ∧
    (∀ rest, limit < program.size → ∃ e, decode (encode program ++ rest) = .error e) ∧
    (∀ front, front <+: encode program → front ≠ encode program →
      ∃ e, decode front = .error e) ∧
    ∀ code, decode code = .ok program → decode (encode program) = .ok program := by
  refine ⟨?_, ?_, ?_, ?_⟩
  · intro rest hsize
    exact (decode_eq_ok_iff program program rest).mpr ⟨hsize, rfl⟩
  · intro rest hlarge
    cases hdecode : decode (encode program ++ rest) with
    | error e => exact ⟨e, rfl⟩
    | ok found =>
      have hsize := ((decode_eq_ok_iff program found rest).mp hdecode).1
      omega
  · intro front hfront hcut
    exact decode_of_cut hfront hcut
  · intro code hcode
    have hdecode := (decode_eq_ok_iff program program []).mpr
      ⟨size_le_limit_of_decode hcode, rfl⟩
    rwa [List.append_nil] at hdecode

/-- A length in three bytes where one would do, and a byte too many: read all the same,
and written more shortly. -/
theorem wide_code_respelt :
    let program : Program := [.succeed]
    let code : Bytes := [251, 1, 0, 4, 99]
    decode code = .ok program ∧ encode program = [1, 4] ∧ decode [1, 4] = .ok program ∧
      program.size ≤ limit ∧ decode ([1, 4] ++ code) = .ok program ∧
      ∃ e, decode [1] = .error e := by
  intro program code
  have hcode : decode code = .ok program := rfl
  have hsize : program.size ≤ limit := by decide
  obtain ⟨hwhole, -, hcut, hagain⟩ := code_delimits_itself program
  exact ⟨hcode, rfl, hagain code hcode, hsize, hwhole code hsize,
    hcut [1] ⟨[4], rfl⟩ (by decide)⟩

end Program
end Language
end LineShell
