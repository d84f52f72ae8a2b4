import RegistryFront.Pem.Basic
import RegistryFront.Proofs.Base64

/-!
# Where a section is found

A section that is well formed is read as it stands, whatever follows it; what is before it may be
anything that begins no other section.
-/

namespace RegistryFront.Pem

open Base64 (isSpace)

def Ended {α : Type} (stop : α) (text : List α) : Prop := text = [] ∨ ∃ front, text = front ++ [stop]

/-! ## Lines -/

@[simp] theorem lines_nil : lines [] = [[]] := rfl

theorem lines_break {b : UInt8} (h : b = 10 ∨ b = 13) (text : Bytes) :
    lines (b :: text) = [] :: lines text :=
  if_pos h

theorem lines_cons {b : UInt8} (h : ¬(b = 10 ∨ b = 13)) {text line : Bytes} {others : List Bytes}
    (htext : lines text = line :: others) : lines (b :: text) = (b :: line) :: others := by
  rw [lines, if_neg h, htext]

theorem lines_ne_nil (text : Bytes) : lines text ≠ [] := by
  induction text with
  | nil => simp
  | cons b rest ih =>
      by_cases hb : b = 10 ∨ b = 13
      · simp [lines_break hb]
      · obtain ⟨line, others, hrest⟩ := List.exists_cons_of_ne_nil ih
        simp [lines_cons hb hrest]

theorem lines_append_break (front rest : Bytes) :
    lines (front ++ 10 :: rest) = lines front ++ lines rest := by
  induction front with
  | nil => exact lines_break (.inl rfl) rest
  | cons b front ih =>
      rw [List.cons_append]
      by_cases hb : b = 10 ∨ b = 13
      · rw [lines_break hb, lines_break hb, ih, List.cons_append]
      · obtain ⟨line, others, hfront⟩ := List.exists_cons_of_ne_nil (lines_ne_nil front)
        rw [hfront, List.cons_append] at ih
        rw [lines_cons hb ih, lines_cons hb hfront, List.cons_append]

theorem flatten_lines (text : Bytes) :
    (lines text).flatten = text.filter fun b => b ≠ 10 ∧ b ≠ 13 := by
  induction text with
  | nil => rfl
  | cons b rest ih =>
      by_cases hb : b = 10 ∨ b = 13
      · rw [lines_break hb, List.filter_cons_of_neg (by grind), ← ih]
        rfl
      · obtain ⟨line, others, hrest⟩ := List.exists_cons_of_ne_nil (lines_ne_nil rest)
        rw [hrest] at ih
        rw [lines_cons hb hrest, List.filter_cons_of_pos (by simpa using hb), ← ih]
        rfl

theorem filter_flatten_lines (text : Bytes) :
    (lines text).flatten.filter (fun b => !isSpace b) = text.filter fun b => !isSpace b := by
  rw [flatten_lines, List.filter_filter]
  refine List.filter_congr fun b _ => ?_
  by_cases hb : b = 10 ∨ b = 13
  · rcases hb with rfl | rfl <;> rfl
  · simpa using fun _ => not_or.mp hb

theorem mem_of_mem_lines {text line : Bytes} {b : UInt8} (hline : line ∈ lines text)
    (hb : b ∈ line) : b ∈ text ∧ b ≠ 10 ∧ b ≠ 13 := by
  have hmem := List.mem_flatten_of_mem hline hb
  rw [flatten_lines] at hmem
  simpa using hmem

theorem lines_append {line : Bytes} (h : 10 ∉ line ∧ 13 ∉ line) {text first : Bytes}
    {others : List Bytes} (htext : lines text = first :: others) :
    lines (line ++ text) = (line ++ first) :: others := by
  induction line with
  | nil => exact htext
  | cons b line ih =>
      obtain ⟨hten, hthirteen⟩ := h
      rw [List.mem_cons, not_or] at hten hthirteen
      have hb : ¬(b = 10 ∨ b = 13) := not_or.mpr ⟨Ne.symm hten.1, Ne.symm hthirteen.1⟩
      exact lines_cons hb (ih ⟨hten.2, hthirteen.2⟩)

theorem Ended.pieces {text : Bytes} (h : Ended 10 text) :
    ∃ pieces, lines text = pieces ++ [[]] ∧ ∀ rest, lines (text ++ rest) = pieces ++ lines rest := by
  obtain rfl | ⟨front, rfl⟩ := h
  · exact ⟨[], rfl, fun _ => rfl⟩
  · refine ⟨lines front, lines_append_break front [], fun rest => ?_⟩
    rw [List.append_assoc]
    exact lines_append_break front rest

theorem lines_of_blanks {blanks : Bytes} (h : ∀ b ∈ blanks, b = 32 ∨ b = 13) :
    ∃ first others, lines blanks = first :: others ∧ (∀ b ∈ first, b = 32) ∧
      (∀ line ∈ others, 45 ∉ line) ∧ others.flatten.filter (fun b => !isSpace b) = [] := by
  obtain ⟨first, others, hlines⟩ := List.exists_cons_of_ne_nil (lines_ne_nil blanks)
  have hspaces : ∀ line ∈ first :: others, ∀ b ∈ line, b = 32 := by
    intro line hline b hb
    rw [← hlines] at hline
    obtain ⟨hmem, -, hbreak⟩ := mem_of_mem_lines hline hb
    exact (h b hmem).resolve_right hbreak
  obtain ⟨hfirst, hothers⟩ := List.forall_mem_cons.mp hspaces
  refine ⟨first, others, hlines, hfirst, fun line hline hdash => ?_, ?_⟩
  · exact absurd (hothers line hline 45 hdash) (by decide)
  · rw [List.filter_eq_nil_iff]
    intro b hb
    obtain ⟨line, hline, hb⟩ := List.mem_flatten.mp hb
    obtain rfl := hothers line hline b hb
    decide

/-! ## Reading line by line -/

theorem scan_outside {front : List Bytes} (h : ∀ line ∈ front, ¬ beginMark <+: line)
    (more : List Bytes) : scan none (front ++ more) = scan none more := by
  induction front with
  | nil => rfl
  | cons line front ih =>
      obtain ⟨hline, hfront⟩ := List.forall_mem_cons.mp h
      rw [← List.isPrefixOf_iff_prefix, Bool.not_eq_true] at hline
      simpa [scan, hline] using ih hfront

theorem scan_first {label first : Bytes} (hbegin : beginMark <+: first)
    (hlabel : beginLabel? first = some label) (more : List Bytes) :
    scan none (first :: more) = scan (some ⟨label, []⟩) more := by
  rw [scan, if_pos (List.isPrefixOf_iff_prefix.mpr hbegin), hlabel]
  rfl

theorem scan_open {label : Bytes} {pieces : List Bytes}
    (h : ∀ line ∈ pieces, ¬ beginMark <+: line ∧ ¬ endMark label <+: line) (body : Bytes)
    (more : List Bytes) :
    scan (some ⟨label, body⟩) (pieces ++ more) = scan (some ⟨label, body ++ pieces.flatten⟩) more := by
  induction pieces generalizing body with
  | nil => simp
  | cons line pieces ih =>
      obtain ⟨⟨hbegin, hend⟩, hpieces⟩ := List.forall_mem_cons.mp h
      rw [← List.isPrefixOf_iff_prefix, Bool.not_eq_true] at hbegin hend
      rw [List.cons_append, scan, hbegin]
      simp only [hend]
      simpa using ih hpieces (body ++ line)

theorem not_begins_of_ends {label line : Bytes} (h : endMark label <+: line) :
    ¬ beginMark <+: line := by
  obtain ⟨tail, rfl⟩ := h
  have hdiffer : beginMark.isPrefixOf (endMark label ++ tail) = false := rfl
  rwa [← List.isPrefixOf_iff_prefix, Bool.not_eq_true]

theorem scan_last {label last : Bytes} (h : endMark label <+: last) (body : Bytes)
    (more : List Bytes) :
    scan (some ⟨label, body⟩) (last :: more) =
      (Begun.item? ⟨label, body⟩).toList ++ scan none more := by
  have hbegin := not_begins_of_ends h
  rw [← List.isPrefixOf_iff_prefix] at h hbegin
  simp [scan, h, hbegin]

theorem plain_of_dashless {line : Bytes} (h : 45 ∉ line) (label : Bytes) :
    ¬ beginMark <+: line ∧ ¬ endMark label <+: line := by
  have hmark {mark : Bytes} (hdash : 45 ∈ mark) : ¬ mark <+: line :=
    fun hleads => h (hleads.subset hdash)
  exact ⟨hmark (by decide), hmark (List.mem_append_right _ (by decide))⟩

theorem scan_inside {pieces : List Bytes} (h : ∀ line ∈ pieces, 45 ∉ line) (label body : Bytes)
    (more : List Bytes) :
    scan (some ⟨label, body⟩) (pieces ++ more) = scan (some ⟨label, body ++ pieces.flatten⟩) more :=
  scan_open (fun line hline => plain_of_dashless (h line hline) label) body more

/-! ## The lines that begin and end a section -/

def beginLine (kind : Kind) : Bytes := beginMark ++ kind.labelBytes ++ dashes

theorem leadingDashes_blanks {blanks : Bytes} (h : ∀ b ∈ blanks, b = 32) (count : Nat)
    (after rest : Bytes) :
    leadingDashes count after (blanks ++ rest) = leadingDashes count after rest := by
  induction blanks with
  | nil => rfl
  | cons b blanks ih =>
      obtain ⟨rfl, hblanks⟩ := List.forall_mem_cons.mp h
      rw [List.cons_append, leadingDashes, if_neg (by decide), if_pos rfl, ih hblanks]

theorem leadingDashes_beginLine (kind : Kind) (after : Bytes) :
    leadingDashes 0 after (beginLine kind).reverse = (5, (beginMark ++ kind.labelBytes).reverse) := by
  cases kind <;> rfl

theorem beginLabel?_beginLine (kind : Kind) {blanks : Bytes} (h : ∀ b ∈ blanks, b = 32) :
    beginLabel? (beginLine kind ++ blanks) = some kind.labelBytes := by
  have hblanks : ∀ b ∈ blanks.reverse, b = 32 := fun b hb => h b (List.mem_reverse.mp hb)
  rw [beginLabel?, List.reverse_append, leadingDashes_blanks hblanks, leadingDashes_beginLine]
  simp

theorem ofLabel?_labelBytes (kind : Kind) : Kind.ofLabel? kind.labelBytes = some kind := by
  cases kind <;> decide

theorem beginLine_unbroken (kind : Kind) : 10 ∉ beginLine kind ∧ 13 ∉ beginLine kind := by
  cases kind <;> decide

theorem endMark_unbroken (kind : Kind) :
    10 ∉ endMark kind.labelBytes ∧ 13 ∉ endMark kind.labelBytes := by
  cases kind <;> decide

theorem scan_begin (kind : Kind) {blanks : Bytes} (h : ∀ b ∈ blanks, b = 32) (more : List Bytes) :
    scan none ((beginLine kind ++ blanks) :: more) = scan (some ⟨kind.labelBytes, []⟩) more := by
  have hleads : beginMark <+: beginLine kind ++ blanks := by
    rw [beginLine, List.append_assoc, List.append_assoc]
    exact List.prefix_append _ _
  exact scan_first hleads (beginLabel?_beginLine kind h) more

theorem item?_of_filter (kind : Kind) {body contents : Bytes}
    (h : body.filter (fun b => !isSpace b) = Base64.encode contents) :
    Begun.item? ⟨kind.labelBytes, body⟩ = some (.whole kind contents) := by
  simp [Begun.item?, ofLabel?_labelBytes, Base64.decode?_of_filter h]

/-! ## Whole sections -/

def sectionOf (kind : Kind) (blanks body : Bytes) : Bytes :=
  beginLine kind ++ blanks ++ 10 :: (body ++ endMark kind.labelBytes)

theorem items_of_section (kind : Kind) {front blanks body contents : Bytes} (hfront : Ended 10 front)
    (hskipped : ∀ line ∈ lines front, ¬ beginMark <+: line)
    (hblanks : ∀ b ∈ blanks, b = 32 ∨ b = 13) (hbody : Ended 10 body) (hdashes : 45 ∉ body)
    (hcontents : body.filter (fun b => !isSpace b) = Base64.encode contents) (after : Bytes) :
    ∃ more, items (front ++ sectionOf kind blanks body ++ after) =
      .whole kind contents :: scan none more := by
  obtain ⟨skipped, hfront, hfrontlines⟩ := hfront.pieces
  -- carriage returns among the blanks end lines, which are then part of the body
  obtain ⟨first, others, hblanklines, hfirst, hothers, hspaces⟩ := lines_of_blanks hblanks
  obtain ⟨pieces, hbody, hbodylines⟩ := hbody.pieces
  obtain ⟨tail, more, hafter⟩ := List.exists_cons_of_ne_nil (lines_ne_nil after)
  have hlines : lines (front ++ sectionOf kind blanks body ++ after) =
      skipped ++ (beginLine kind ++ first) :: (others ++ (pieces ++
        (endMark kind.labelBytes ++ tail) :: more)) := by
    simp only [sectionOf, List.append_assoc, List.cons_append]
    rw [hfrontlines, ← List.append_assoc, lines_append_break, hbodylines,
      lines_append (endMark_unbroken kind) hafter,
      lines_append (beginLine_unbroken kind) hblanklines, List.cons_append]
  have hskip : ∀ line ∈ skipped, ¬ beginMark <+: line := fun line hline =>
    hskipped line (hfront ▸ List.mem_append_left _ hline)
  have hpieces : ∀ line ∈ pieces, 45 ∉ line := fun line hline hdash =>
    hdashes (mem_of_mem_lines (hbody ▸ List.mem_append_left _ hline) hdash).1
  have hread : ([] ++ others.flatten ++ pieces.flatten).filter (fun b => !isSpace b) =
      Base64.encode contents := by
    rw [← hcontents, ← filter_flatten_lines body, hbody]
    simp [hspaces]
  refine ⟨more, ?_⟩
  rw [items, hlines, scan_outside hskip, scan_begin kind hfirst, scan_inside hothers,
    scan_inside hpieces, scan_last (List.prefix_append _ _), item?_of_filter kind hread]
  rfl

end RegistryFront.Pem
