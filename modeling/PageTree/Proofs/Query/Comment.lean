import Mathlib.Data.List.Chain
import PageTree.Selector.Term
import PageTree.Sql.Statement

/-!
Comments that list texts. What ends a comment lies within one text, never across the comma between
two. Main statement: a comment that lists some texts of a plain comment is plain itself.
-/

namespace PageTree

namespace Sql

/-- Is the text a comment to its end, once what would end it has been removed? -/
def isPlainComment (cs : List Char) : Bool :=
  !Statement.endsComment (Statement.stripCommentEnds cs)

namespace Statement

theorem hasPlainComment_eq (s : Statement) :
    s.hasPlainComment = isPlainComment s.comment.toList := rfl

variable {c : Char}

theorem not_ends_append {a : Char} {as : List Char}
    (other : ∀ rest, a = '*' → as = '/' :: rest → False) (slash : c ≠ '/') (bs : List Char) :
    ∀ rest, a = '*' → as ++ c :: bs = '/' :: rest → False := by
  intro rest star spelled
  cases as with
  | nil => exact slash (List.cons.inj spelled).1
  | cons b as => exact other as star (congrArg (· :: as) (List.cons.inj spelled).1)

theorem stripCommentEnds_cons (star : c ≠ '*') (cs : List Char) :
    stripCommentEnds (c :: cs) = c :: stripCommentEnds cs :=
  stripCommentEnds.eq_2 c cs fun _ isStar => absurd isStar star

theorem endsComment_cons (star : c ≠ '*') (null : c ≠ '\x00') (cs : List Char) :
    endsComment (c :: cs) = endsComment cs := by
  rw [endsComment.eq_2 c cs fun _ isStar => absurd isStar star, decide_eq_false null,
    Bool.false_or]

/-- The pass starts anew where a character is no second half of an end. -/
theorem stripCommentEnds_append_of_ne (slash : c ≠ '/') (as bs : List Char) :
    stripCommentEnds (as ++ c :: bs) = stripCommentEnds as ++ stripCommentEnds (c :: bs) := by
  induction as using stripCommentEnds.induct with
  | case1 as induction => simp only [List.cons_append, stripCommentEnds, induction]
  | case2 a as other induction =>
      rw [List.cons_append, stripCommentEnds.eq_2 a _ (not_ends_append other slash bs), induction,
        stripCommentEnds.eq_2 a as other, List.cons_append]
  | case3 => rfl

theorem stripCommentEnds_append (star : c ≠ '*') (slash : c ≠ '/') (as bs : List Char) :
    stripCommentEnds (as ++ c :: bs) = stripCommentEnds as ++ c :: stripCommentEnds bs := by
  rw [stripCommentEnds_append_of_ne slash, stripCommentEnds_cons star]

theorem endsComment_append (star : c ≠ '*') (slash : c ≠ '/') (null : c ≠ '\x00')
    (as bs : List Char) :
    endsComment (as ++ c :: bs) = (endsComment as || endsComment bs) := by
  induction as using endsComment.induct with
  | case1 as => simp only [List.cons_append, endsComment, Bool.true_or]
  | case2 a as other induction =>
      rw [List.cons_append, endsComment.eq_2 a _ (not_ends_append other slash bs), induction,
        endsComment.eq_2 a as other, Bool.or_assoc]
  | case3 => exact endsComment_cons star null bs

/-- No two slashes stand next to each other. -/
def HasLoneSlashes (cs : List Char) : Prop :=
  cs.IsChain fun c next => c = '/' → next ≠ '/'

namespace HasLoneSlashes

theorem tail {cs : List Char} (lone : HasLoneSlashes (c :: cs)) : HasLoneSlashes cs :=
  List.IsChain.tail lone

theorem head?_eq {cs : List Char} (lone : HasLoneSlashes cs)
    (slash : (stripCommentEnds cs).head? = some '/') : cs.head? = some '/' := by
  induction cs using stripCommentEnds.induct with
  | case1 cs induction =>
      rw [stripCommentEnds] at slash
      obtain ⟨rest, rfl⟩ := List.head?_eq_some_iff.1 (induction lone.tail.tail slash)
      exact absurd rfl ((List.isChain_cons_cons.1 lone.tail).1 rfl)
  | case2 c cs other induction =>
      rw [stripCommentEnds.eq_2 c cs other] at slash
      exact slash
  | case3 => exact slash

theorem endsComment_eq_false {cs : List Char} (lone : HasLoneSlashes cs) (null : '\x00' ∉ cs) :
    endsComment (stripCommentEnds cs) = false := by
  induction cs using stripCommentEnds.induct with
  | case1 cs induction =>
      rw [stripCommentEnds]
      exact induction lone.tail.tail fun member => null (by simp [member])
  | case2 c cs other induction =>
      rw [List.mem_cons, not_or] at null
      -- A star and a slash can only meet when what stood between them was a comment end, which has
      -- a slash of its own.
      have apart : ∀ rest, c = '*' → stripCommentEnds cs = '/' :: rest → False := by
        intro rest star slash
        have head := lone.tail.head?_eq (List.head?_eq_some_iff.2 ⟨rest, slash⟩)
        obtain ⟨rest, rfl⟩ := List.head?_eq_some_iff.1 head
        exact other rest star rfl
      rw [stripCommentEnds.eq_2 c cs other, endsComment.eq_2 c _ apart,
        induction lone.tail null.2, decide_eq_false (Ne.symm null.1)]
      rfl
  | case3 => rfl

theorem of_notMem {cs : List Char} (free : '/' ∉ cs) : HasLoneSlashes cs :=
  List.Pairwise.isChain (List.pairwise_of_forall_mem_list fun _ member _ _ same =>
    absurd (same ▸ member) free)

theorem append {cs rest : List Char} (lone : HasLoneSlashes cs) (loneRest : HasLoneSlashes rest)
    (apart : cs.getLast? ≠ some '/' ∨ rest.head? ≠ some '/') : HasLoneSlashes (cs ++ rest) := by
  refine List.IsChain.append lone loneRest fun c last next first same other => ?_
  subst same other
  exact apart.elim (fun ends => ends last) fun starts => starts first

/-- Text without slashes around a text adds none to it. -/
theorem surround {front cs back : List Char} (lone : HasLoneSlashes cs) (starts : '/' ∉ front)
    (ends : '/' ∉ back) : HasLoneSlashes (front ++ cs ++ back) :=
  ((of_notMem starts).append lone (.inl fun last => starts (List.mem_of_mem_getLast? last))).append
    (of_notMem ends) (.inr fun first => ends (List.mem_of_mem_head? first))

end HasLoneSlashes

end Statement

open Statement

theorem isPlainComment_of_hasLoneSlashes {cs : List Char} (lone : HasLoneSlashes cs)
    (null : '\x00' ∉ cs) : isPlainComment cs = true := by
  rw [isPlainComment, HasLoneSlashes.endsComment_eq_false lone null]
  rfl

theorem isPlainComment_append {c : Char} (star : c ≠ '*') (slash : c ≠ '/') (null : c ≠ '\x00')
    (as bs : List Char) :
    isPlainComment (as ++ c :: bs) = (isPlainComment as && isPlainComment bs) := by
  rw [isPlainComment, stripCommentEnds_append star slash, endsComment_append star slash null,
    Bool.not_or]
  rfl

theorem isPlainComment_blank (cs : List Char) : isPlainComment (' ' :: cs) = isPlainComment cs := by
  rw [isPlainComment, stripCommentEnds_cons (by decide),
    endsComment_cons (by decide) (by decide)]
  rfl

/-- A list of texts is a plain comment when each of them is. -/
theorem isPlainComment_intercalate (texts : List String) :
    isPlainComment (", ".intercalate texts).toList =
      texts.all fun text => isPlainComment text.toList := by
  induction texts with
  | nil => rfl
  | cons text texts induction =>
      cases texts with
      | nil => simp
      | cons next texts =>
          rw [String.intercalate_cons_cons, String.toList_append, String.toList_append,
            List.append_assoc, List.all_cons, ← induction]
          have comma (rest : List Char) : ", ".toList ++ rest = ',' :: ' ' :: rest := rfl
          rw [comma, isPlainComment_append (by decide) (by decide) (by decide),
            isPlainComment_blank]

end Sql

end PageTree
