import PageTree.Proofs.Query.Comment

/-!
Where the comment of a statement ends. What would end a comment is removed in one pass, so it comes
back where two halves of an end stood around other ends. Main statement: a statement is read up to
its comment as it is without one, and its comment is one to the end of the text exactly when no end
is nested in another in the text of the comment.
-/

namespace PageTree.Sql.Statement

def commentEnd : List Char :=
  ['*', '/']

/-- An end of a comment around one or more ends of comments. -/
def nestedEnd (n : Nat) : List Char :=
  '*' :: (List.replicate (n + 1) commentEnd).flatten ++ ['/']

def HasNestedEnd (cs : List Char) : Prop :=
  ∃ n, nestedEnd n <:+: cs

namespace HasNestedEnd

theorem of_suffix {cs rest : List Char} (nested : HasNestedEnd rest) (suffix : rest <:+ cs) :
    HasNestedEnd cs :=
  nested.imp fun _ within => within.trans suffix.isInfix

end HasNestedEnd

theorem stripCommentEnds_replicate (n : Nat) (cs : List Char) :
    stripCommentEnds ((List.replicate n commentEnd).flatten ++ cs) = stripCommentEnds cs := by
  induction n with
  | zero => rfl
  | succ n induction =>
      rw [List.replicate_succ, List.flatten_cons, List.append_assoc]
      exact induction

theorem stripCommentEnds_nestedEnd (n : Nat) (cs : List Char) :
    stripCommentEnds (nestedEnd n ++ cs) = commentEnd ++ stripCommentEnds cs := by
  have star : nestedEnd n ++ cs
      = '*' :: ((List.replicate (n + 1) commentEnd).flatten ++ '/' :: cs) := by
    simp [nestedEnd]
  -- The first star stands before another one, so the pass keeps it.
  have kept : ∀ rest, '*' = '*' →
      (List.replicate (n + 1) commentEnd).flatten ++ '/' :: cs = '/' :: rest → False :=
    fun rest _ spelled => absurd (List.cons.inj spelled).1 (by decide)
  rw [star, stripCommentEnds.eq_2 '*' _ kept, stripCommentEnds_replicate,
    stripCommentEnds_cons (by decide)]
  rfl

/-- A slash comes first after the pass when nothing but ends stood before it. -/
theorem exists_replicate_of_strip_eq {cs rest : List Char}
    (slash : stripCommentEnds cs = '/' :: rest) :
    ∃ n back, cs = (List.replicate n commentEnd).flatten ++ '/' :: back := by
  induction cs using stripCommentEnds.induct with
  | case1 cs induction =>
      obtain ⟨n, back, rfl⟩ := induction slash
      exact ⟨n + 1, back, rfl⟩
  | case2 c cs other induction =>
      rw [stripCommentEnds.eq_2 c cs other] at slash
      obtain ⟨rfl, -⟩ := List.cons.inj slash
      exact ⟨0, cs, rfl⟩
  | case3 => exact absurd slash (List.cons_ne_nil _ _).symm

/-- An end is left after the pass exactly where one was nested in another. -/
theorem commentEnd_infix_strip_iff (cs : List Char) :
    commentEnd <:+: stripCommentEnds cs ↔ HasNestedEnd cs := by
  constructor
  · intro left
    induction cs using stripCommentEnds.induct with
    | case1 cs induction => exact (induction left).of_suffix ⟨['*', '/'], rfl⟩
    | case2 c cs other induction =>
        rw [stripCommentEnds.eq_2 c cs other, List.infix_cons_iff] at left
        rcases left with ⟨back, first⟩ | later
        · obtain ⟨rfl, slash⟩ := List.cons.inj first
          obtain ⟨n, back, rfl⟩ := exists_replicate_of_strip_eq slash.symm
          cases n with
          | zero => exact absurd rfl (other back rfl)
          | succ n => exact ⟨n, [], back, by simp [nestedEnd]⟩
        · exact (induction later).of_suffix (List.suffix_cons c cs)
    | case3 => exact absurd (List.infix_nil.1 left) (List.cons_ne_nil _ _)
  · rintro ⟨n, front, back, rfl⟩
    have split : stripCommentEnds (front ++ nestedEnd n ++ back)
        = stripCommentEnds front ++ stripCommentEnds (nestedEnd n ++ back) := by
      rw [List.append_assoc]
      exact stripCommentEnds_append_of_ne (by decide) front _
    rw [split, stripCommentEnds_nestedEnd]
    exact ⟨stripCommentEnds front, stripCommentEnds back, List.append_assoc _ _ _⟩

theorem endsComment_eq_true_iff (cs : List Char) :
    endsComment cs = true ↔ commentEnd <:+: cs ∨ '\x00' ∈ cs := by
  induction cs using endsComment.induct with
  | case1 cs => exact iff_of_true rfl (.inl ⟨[], cs, rfl⟩)
  | case2 c cs other induction =>
      have apart : ¬ commentEnd <+: c :: cs := by
        rintro ⟨rest, spelled⟩
        obtain ⟨rfl, slash⟩ := List.cons.inj spelled
        exact other rest rfl slash.symm
      rw [endsComment.eq_2 c cs other, Bool.or_eq_true, decide_eq_true_iff, induction,
        List.infix_cons_iff, or_iff_right apart, List.mem_cons, eq_comm (a := c)]
      exact or_left_comm
  | case3 => simp [endsComment, commentEnd]

theorem null_mem_stripCommentEnds_iff (cs : List Char) :
    '\x00' ∈ stripCommentEnds cs ↔ '\x00' ∈ cs := by
  induction cs using stripCommentEnds.induct with
  | case1 cs induction => rw [stripCommentEnds, induction]; simp
  | case2 c cs other induction =>
      rw [stripCommentEnds.eq_2 c cs other, List.mem_cons, List.mem_cons, induction]
  | case3 => rfl

/-- What a plain comment is free of: ends nested in others, and the end of a text. -/
theorem isPlainComment_iff (cs : List Char) :
    isPlainComment cs = true ↔ ¬ HasNestedEnd cs ∧ '\x00' ∉ cs := by
  rw [isPlainComment, Bool.not_eq_true', ← Bool.not_eq_true, endsComment_eq_true_iff, not_or,
    commentEnd_infix_strip_iff, null_mem_stripCommentEnds_iff]

theorem isPlainComment_of_infix {cs part : List Char} (within : part <:+: cs)
    (plain : isPlainComment cs = true) : isPlainComment part = true := by
  rw [isPlainComment_iff] at plain ⊢
  exact ⟨fun ⟨n, nested⟩ => plain.1 ⟨n, nested.trans within⟩,
    fun null => plain.2 (within.subset null)⟩

theorem isPlainComment_of_notMem {cs : List Char} (star : '*' ∉ cs) (null : '\x00' ∉ cs) :
    isPlainComment cs = true := by
  rw [isPlainComment_iff]
  exact ⟨fun ⟨_, nested⟩ => star (nested.subset (List.mem_cons_self ..)), null⟩

def commentBody (s : Statement) : List Char :=
  ' ' :: stripCommentEnds s.comment.toList ++ ' ' :: commentEnd

/-- The first end in a text is what it closes with. -/
def IsOneComment (body : List Char) : Prop :=
  commentEnd <:+ body ∧ ∀ front back, body = front ++ commentEnd ++ back → back = []

theorem commentEnd_infix_concat_iff {c : Char} (slash : c ≠ '/') (cs : List Char) :
    commentEnd <:+: cs ++ [c] ↔ commentEnd <:+: cs := by
  rw [List.infix_concat_iff, or_iff_right]
  rintro ⟨front, closing⟩
  have last := congrArg List.getLast? closing
  rw [List.getLast?_append, List.getLast?_concat] at last
  exact slash (Option.some.inj last).symm

theorem isOneComment_append_iff (cs : List Char) :
    IsOneComment (' ' :: cs ++ ' ' :: commentEnd) ↔ ¬ commentEnd <:+: cs := by
  constructor
  · rintro ⟨-, closing⟩ ⟨front, back, rfl⟩
    have reached := closing (' ' :: front) (back ++ ' ' :: commentEnd) (by simp)
    exact absurd reached (by simp)
  · intro free
    refine ⟨⟨' ' :: cs ++ [' '], by simp⟩, fun front back split => ?_⟩
    by_contra more
    obtain ⟨back, last, rfl⟩ := List.eq_nil_or_concat back |>.resolve_left more
    have lasts : ' ' :: cs ++ [' '] ++ ['*'] ++ ['/'] = front ++ commentEnd ++ back ++ [last] := by
      simpa [commentEnd] using split
    have inside : commentEnd <:+: ' ' :: cs ++ [' '] ++ ['*'] :=
      ⟨front, back, (List.append_inj' lasts rfl).1.symm⟩
    rw [commentEnd_infix_concat_iff (by decide), commentEnd_infix_concat_iff (by decide),
      List.infix_cons_iff] at inside
    rcases inside with ⟨rest, first⟩ | within
    · exact absurd (List.cons.inj first).1 (by decide)
    · exact free within

theorem lines_ne_nil (s : Statement) : s.lines ≠ [] := by
  simp [lines]

theorem render_of_comment (s : Statement) (some : s.comment ≠ "") :
    s.render.toList = (s.setComment "").render.toList ++ "\n/*".toList ++ s.commentBody := by
  have lines : s.lines = (s.setComment "").lines
      ++ ["/* " ++ String.ofList (stripCommentEnds s.comment.toList) ++ " */"] := by
    simp only [Statement.lines, if_neg some]
    simp [setComment, selectLine, fromLine, withoutFoundRows, countsFoundRows]
  rw [render, lines, String.intercalate_append_of_ne_nil (lines_ne_nil _) (List.cons_ne_nil _ _),
    String.intercalate_singleton, ← render]
  simp [commentBody, commentEnd]

/-- A statement with a comment is its text without one and then a comment. The first end of that
comment closes the text unless the comment holds an end nested in another. -/
theorem comment_closes_iff (s : Statement) (some : s.comment ≠ "") :
    s.render.toList = (s.setComment "").render.toList ++ "\n/*".toList ++ s.commentBody
      ∧ (IsOneComment s.commentBody ↔ ¬ HasNestedEnd s.comment.toList) := by
  refine ⟨render_of_comment s some, ?_⟩
  rw [commentBody, isOneComment_append_iff, commentEnd_infix_strip_iff]

/-- The statement of a page with a quoted name as its start, and that as a comment. -/
def nestedStatement : Statement :=
  { empty with columns := ["pages.id"], tables := ["pages"],
               comment := "start='**// UNION SELECT id,templates_id FROM pages --'" }

theorem comment_closes_iff_nestedStatement :
    nestedStatement.comment ≠ "" ∧ HasNestedEnd nestedStatement.comment.toList
      ∧ ¬ IsOneComment nestedStatement.commentBody := by
  have some : nestedStatement.comment ≠ "" := by decide
  have nested : HasNestedEnd nestedStatement.comment.toList :=
    ⟨0, "start='".toList, " UNION SELECT id,templates_id FROM pages --'".toList, by decide⟩
  exact ⟨some, nested, fun one => (comment_closes_iff _ some).2.1 one nested⟩

end PageTree.Sql.Statement
