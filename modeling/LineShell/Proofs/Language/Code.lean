import LineShell.Language.Code
import LineShell.Proofs.Binary.Spelling
import Mathlib.Tactic

/-!
# Program code read back

The code of a program spells the program: decoding gives it back, whatever follows
the code, as long as the program's nominal size stays within the limit.  The depth
that decoding allows for is never too small, since each level of nesting takes a
byte of its own.
-/

namespace LineShell
namespace Language

open Binary Binary.Reader Text

/-! ## Nominal sizes

Reading takes from the budget eight for a length, four for a choice and for a number
of 32 bits, one for a byte that tells whether a value follows, and the bytes of a
text. -/

def textSize (s : String) : Nat :=
  8 + (Utf8.encode s).length

def Part.size : Part → Nat
  | .lit s => 4 + textSize s
  | .var s => 4 + textSize s

def Word.size (word : Word) : Nat :=
  8 + (word.map Part.size).sum

def wordsSize (words : List Word) : Nat :=
  8 + (words.map Word.size).sum

mutual

def Stmt.size : Stmt → Nat
  | .echo _ words => 4 + (4 + wordsSize words)
  | .set name words => 4 + (textSize name + wordsSize words)
  | .unset name => 4 + textSize name
  | .cd none => 4 + 1
  | .cd (some word) => 4 + (1 + word.size)
  | .succeed => 4
  | .markFailed => 4
  | .exit none => 4 + 1
  | .exit (some _) => 4 + (1 + 4)
  | .fail words => 4 + wordsSize words
  | .abort words => 4 + wordsSize words
  | .loop _ body => 4 + (4 + (8 + Stmt.sizes body))

def Stmt.sizes : List Stmt → Nat
  | [] => 0
  | stmt :: rest => stmt.size + Stmt.sizes rest

end

def Program.size (program : Program) : Nat :=
  8 + Stmt.sizes program

theorem Part.one_le_size (part : Part) : 1 ≤ part.size := by
  cases part <;> (simp only [Part.size]; omega)

theorem Word.one_le_size (word : Word) : 1 ≤ word.size := by
  unfold Word.size
  omega

theorem Stmt.one_le_size (stmt : Stmt) : 1 ≤ stmt.size := by
  cases stmt with
  | cd dir => cases dir <;> (simp only [Stmt.size]; omega)
  | exit code => cases code <;> (simp only [Stmt.size]; omega)
  | _ =>
    simp only [Stmt.size]
    omega

theorem Stmt.length_le_sizes (stmts : List Stmt) : stmts.length ≤ Stmt.sizes stmts := by
  induction stmts with
  | nil => exact Nat.le_refl 0
  | cons stmt rest ih =>
    have hfirst := stmt.one_le_size
    rw [List.length_cons, Stmt.sizes]
    omega

/-! ## How deep repetitions nest -/

mutual

def Stmt.depth : Stmt → Nat
  | .loop _ body => 1 + Stmt.depths body
  | _ => 0

def Stmt.depths : List Stmt → Nat
  | [] => 0
  | stmt :: rest => max stmt.depth (Stmt.depths rest)

end

mutual

theorem Stmt.depth_le_length (stmt : Stmt) : stmt.depth ≤ (Code.ofStmt stmt).length := by
  cases stmt with
  | loop count body =>
    have hbody := Stmt.depths_le_length body
    have hmark : (Binary.varint 9).length = 1 := rfl
    simp only [Stmt.depth, Code.ofStmt, List.length_append]
    omega
  | _ => exact Nat.zero_le _

theorem Stmt.depths_le_length (stmts : List Stmt) :
    Stmt.depths stmts ≤ (Code.ofStmts stmts).length := by
  cases stmts with
  | nil => exact Nat.zero_le _
  | cons stmt rest =>
    have hfirst := Stmt.depth_le_length stmt
    have hrest := Stmt.depths_le_length rest
    simp only [Stmt.depths, Code.ofStmts, List.length_append]
    omega

end

namespace Code

/-! ## Words -/

theorem spells_part (p : Part) : Spells part p (ofPart p) p.size := by
  cases p with
  | lit s =>
    have hindex := spells_choice (by decide : 0 < 2) (by decide)
    exact hindex.bind ((spells_text s).map Part.lit)
  | var s =>
    have hindex := spells_choice (by decide : 1 < 2) (by decide)
    exact hindex.bind ((spells_text s).map Part.var)

theorem spells_word (w : Word) : Spells word w (ofWord w) w.size :=
  spells_sequence (fun p _ => spells_part p) (fun p _ => p.one_le_size)

theorem spells_words (ws : List Word) : Spells words ws (ofWords ws) (wordsSize ws) :=
  spells_sequence (fun w _ => spells_word w) (fun w _ => w.one_le_size)

theorem spells_stream (out : Stream) : Spells stream out (ofStream out) 4 := by
  cases out with
  | stdout =>
    have hindex := spells_choice (by decide : 0 < 2) (by decide)
    have hread : Spells stream .stdout (Binary.varint 0 ++ []) (4 + 0) :=
      hindex.bind (spells_pure Stream.stdout)
    exact hread.cast (List.append_nil _) rfl
  | stderr =>
    have hindex := spells_choice (by decide : 1 < 2) (by decide)
    have hread : Spells stream .stderr (Binary.varint 1 ++ []) (4 + 0) :=
      hindex.bind (spells_pure Stream.stderr)
    exact hread.cast (List.append_nil _) rfl

/-! ## Statements -/

mutual

theorem spells_stmt
    (s : Stmt) {depth : Nat} (hdepth : s.depth < depth) :
    Spells (stmt depth) s (ofStmt s) s.size := by
  cases depth with
  | zero => omega
  | succ depth =>
    cases s with
    | echo out ws =>
      have hindex := spells_choice (by decide : 0 < 10) (by decide)
      have hread : Spells (stmt (depth + 1)) (.echo out ws)
          (Binary.varint 0 ++ (ofStream out ++ (ofWords ws ++ []))) (4 + (4 + (wordsSize ws + 0))) :=
        hindex.bind ((spells_stream out).bind ((spells_words ws).bind (spells_pure _)))
      exact hread.cast (by simp [ofStmt]) rfl
    | set name ws =>
      have hindex := spells_choice (by decide : 1 < 10) (by decide)
      have hread : Spells (stmt (depth + 1)) (.set name ws)
          (Binary.varint 1 ++ (Binary.text name ++ (ofWords ws ++ [])))
          (4 + (textSize name + (wordsSize ws + 0))) :=
        hindex.bind ((spells_text name).bind ((spells_words ws).bind (spells_pure _)))
      exact hread.cast (by simp [ofStmt]) rfl
    | unset name =>
      have hindex := spells_choice (by decide : 2 < 10) (by decide)
      exact hindex.bind ((spells_text name).map Stmt.unset)
    | cd dir =>
      have hindex := spells_choice (by decide : 3 < 10) (by decide)
      cases dir with
      | none => exact hindex.bind ((spells_none word ofWord).map Stmt.cd)
      | some w => exact hindex.bind ((spells_some (spells_word w)).map Stmt.cd)
    | succeed =>
      have hindex := spells_choice (by decide : 4 < 10) (by decide)
      have hread : Spells (stmt (depth + 1)) .succeed (Binary.varint 4 ++ []) (4 + 0) :=
        hindex.bind (spells_pure Stmt.succeed)
      exact hread.cast (List.append_nil _) rfl
    | markFailed =>
      have hindex := spells_choice (by decide : 5 < 10) (by decide)
      have hread : Spells (stmt (depth + 1)) .markFailed (Binary.varint 5 ++ []) (4 + 0) :=
        hindex.bind (spells_pure Stmt.markFailed)
      exact hread.cast (List.append_nil _) rfl
    | exit code =>
      have hindex := spells_choice (by decide : 6 < 10) (by decide)
      cases code with
      | none => exact hindex.bind ((spells_none Reader.int32 Binary.int32).map Stmt.exit)
      | some n => exact hindex.bind ((spells_some (spells_int32 n)).map Stmt.exit)
    | fail ws =>
      have hindex := spells_choice (by decide : 7 < 10) (by decide)
      exact hindex.bind ((spells_words ws).map Stmt.fail)
    | abort ws =>
      have hindex := spells_choice (by decide : 8 < 10) (by decide)
      exact hindex.bind ((spells_words ws).map Stmt.abort)
    | loop count body =>
      have hindex := spells_choice (by decide : 9 < 10) (by decide)
      have hinner : Stmt.depths body < depth := by
        rw [Stmt.depth] at hdepth
        omega
      have hbody : Spells (sequence (stmt depth)) body (Binary.varint body.length ++ ofStmts body)
          (8 + Stmt.sizes body) :=
        spells_lengthFirst (spells_stmts body hinner) (Stmt.length_le_sizes body)
      have hread : Spells (stmt (depth + 1)) (.loop count body)
          (Binary.varint 9 ++ (Binary.varint count.toNat ++ ((Binary.varint body.length ++ ofStmts body) ++ [])))
          (4 + (4 + (8 + Stmt.sizes body + 0))) :=
        hindex.bind ((spells_word32 count).bind (hbody.bind (spells_pure _)))
      exact hread.cast (by simp [ofStmt]) rfl

theorem spells_stmts
    (list : List Stmt) {depth : Nat} (hdepth : Stmt.depths list < depth) :
    Spells (items (stmt depth) list.length) list (ofStmts list) (Stmt.sizes list) := by
  cases list with
  | nil => exact spells_pure []
  | cons s rest =>
    rw [Stmt.depths] at hdepth
    have hfirst := spells_stmt s (by omega : s.depth < depth)
    have hrest := (spells_stmts rest (by omega : Stmt.depths rest < depth)).map
      fun others => s :: others
    rw [map_eq_pure_bind] at hrest
    exact hfirst.bind hrest

end

end Code

namespace Program

/-- The code of a program spells it at every depth that code of its length allows
for. -/
theorem spells (program : Program) (rest : Bytes) :
    Spells (sequence (Code.stmt ((encode program ++ rest).length + 1))) program
      (encode program) program.size := by
  have hdepth : Stmt.depths program < (encode program ++ rest).length + 1 := by
    have hcode := Stmt.depths_le_length program
    rw [encode, List.length_append, List.length_append]
    omega
  exact spells_lengthFirst (Code.spells_stmts program hdepth)
    (Stmt.length_le_sizes program)

/-- Decoding gives back the program of a code, whatever follows it, or fails if the
program is larger than the limit. -/
theorem decode_eq_ok_iff (program found : Program) (rest : Bytes) :
    decode (encode program ++ rest) = .ok found ↔
      program.size ≤ limit ∧ found = program :=
  (spells program rest).decode_eq_ok_iff rest found

/-- Programs of the same code are the same if one of them is not too large. -/
theorem eq_of_encode_eq
    {program other : Program} (hsize : program.size ≤ limit)
    (hcode : encode other = encode program) : other = program := by
  have hdecode := (decode_eq_ok_iff program program []).mpr ⟨hsize, rfl⟩
  rw [← hcode] at hdecode
  exact ((decode_eq_ok_iff other program []).mp hdecode).2.symm

end Program
end Language
end LineShell
