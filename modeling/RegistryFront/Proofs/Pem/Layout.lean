import Mathlib.Data.List.Infix
import RegistryFront.Proofs.Pem.Sections

/-!
# Lines as they stand in a text

A line may end with any of three line breaks, and which one it is makes no difference.  A section begins
with a line of one form, and a line of that form has one label.
-/

namespace RegistryFront.Pem

/-! ## Line breaks -/

inductive Break where
  | feed
  | carriageReturn
  | both
  deriving DecidableEq, Repr

def Break.bytes : Break → Bytes
  | feed => [10]
  | carriageReturn => [13]
  | both => [13, 10]

/-- The text has these lines, each with a break behind it, but for the last one, which may have none. -/
inductive Laid : List Bytes → Bytes → Prop where
  | nil : Laid [] []
  | last {line : Bytes} (hline : 10 ∉ line ∧ 13 ∉ line) : Laid [line] line
  | cons {line : Bytes} (hline : 10 ∉ line ∧ 13 ∉ line) (separator : Break) {others : List Bytes}
      {text : Bytes} (hrest : Laid others text) :
      Laid (line :: others) (line ++ (separator.bytes ++ text))

def withBreaks (parts : List (Bytes × Break)) (last : Bytes) : Bytes :=
  parts.flatMap (fun part => part.1 ++ part.2.bytes) ++ last

theorem laid_withBreaks {parts : List (Bytes × Break)} {last : Bytes}
    (h : ∀ part ∈ parts, 10 ∉ part.1 ∧ 13 ∉ part.1) (hlast : 10 ∉ last ∧ 13 ∉ last) :
    Laid (parts.map Prod.fst ++ [last]) (withBreaks parts last) := by
  induction parts with
  | nil => exact .last hlast
  | cons part parts ih =>
      obtain ⟨hpart, hparts⟩ := List.forall_mem_cons.mp h
      simpa [withBreaks] using Laid.cons hpart part.2 (ih hparts)

theorem lines_of_not_mem {line : Bytes} (h : 10 ∉ line ∧ 13 ∉ line) : lines line = [line] := by
  simpa using lines_append h lines_nil

theorem scan_empty (begun : Option Begun) (more : List Bytes) :
    scan begun ([] :: more) = scan begun more := by
  have hbegin : beginMark.isPrefixOf [] = false := rfl
  cases begun with
  | none => simp [scan, hbegin]
  | some begun =>
      have hend : (endMark begun.label).isPrefixOf [] = false := rfl
      simp [scan, hbegin, hend]

theorem scan_congr {rest others : List Bytes} (line : Bytes)
    (h : ∀ begun, scan begun rest = scan begun others) (begun : Option Begun) :
    scan begun (line :: rest) = scan begun (line :: others) := by
  cases begun <;> simp only [scan, h]

theorem scan_line {line : Bytes} (h : 10 ∉ line ∧ 13 ∉ line) (separator : Break) (text : Bytes)
    (begun : Option Begun) :
    scan begun (lines (line ++ (separator.bytes ++ text))) = scan begun (line :: lines text) := by
  cases separator with
  | feed =>
      have hlines : lines (10 :: text) = [] :: lines text := lines_break (.inl rfl) text
      simp [Break.bytes, lines_append h hlines]
  | carriageReturn =>
      have hlines : lines (13 :: text) = [] :: lines text := lines_break (.inr rfl) text
      simp [Break.bytes, lines_append h hlines]
  | both =>
      have hlines : lines (13 :: 10 :: text) = [] :: [] :: lines text := by
        rw [lines_break (.inr rfl), lines_break (.inl rfl)]
      simpa [Break.bytes, lines_append h hlines] using
        scan_congr line (fun begun => scan_empty begun _) begun

theorem scan_of_laid {parts : List Bytes} {text : Bytes} (h : Laid parts text)
    (begun : Option Begun) : scan begun (lines text) = scan begun parts := by
  induction h generalizing begun with
  | nil => exact scan_empty begun []
  | last hline => rw [lines_of_not_mem hline]
  | cons hline separator _ ih => rw [scan_line hline, scan_congr _ ih]

/-! ## The line that begins a section -/

/-- Blanks at its end aside, the text does not end with a dash. -/
def Undashed (text : Bytes) : Prop := (text.reverse.dropWhile (· == 32)).head? ≠ some 45

instance (text : Bytes) : Decidable (Undashed text) := inferInstanceAs (Decidable (_ ≠ _))

structure Closes (label closing : Bytes) : Prop where
  head : closing.head? = some 45
  bytes : ∀ b ∈ closing, b = 45 ∨ b = 32
  dashes : closing.count 45 = 5
  label : Undashed label

theorem leadingDashes_stop {text : Bytes} (h : (text.dropWhile (· == 32)).head? ≠ some 45)
    (count : Nat) (after : Bytes) : leadingDashes count after text = (count, after) := by
  induction text with
  | nil => rfl
  | cons b rest ih =>
      by_cases hblank : b = 32
      · subst hblank
        rw [leadingDashes, if_neg (by decide), if_pos rfl, ih (by simpa using h)]
      · have hdash : b ≠ 45 := by simpa [hblank] using h
        rw [leadingDashes, if_neg hdash, if_neg hblank]

theorem leadingDashes_append {front : Bytes} (h : ∀ b ∈ front, b = 45 ∨ b = 32) (count : Nat)
    (after rest : Bytes) :
    leadingDashes count after (front ++ 45 :: rest) =
      leadingDashes (count + front.count 45 + 1) rest rest := by
  induction front generalizing count after with
  | nil => simp [leadingDashes]
  | cons b front ih =>
      obtain ⟨hb, hfront⟩ := List.forall_mem_cons.mp h
      rw [List.cons_append, leadingDashes]
      rcases hb with rfl | rfl
      · rw [if_pos rfl, ih hfront, List.count_cons_self]
        congr 1
        omega
      · rw [if_neg (by decide), if_pos rfl, ih hfront, List.count_cons_of_ne (by decide)]

theorem leadingDashes_cases (count : Nat) (after text : Bytes) :
    (leadingDashes count after text = (count, after) ∧
      (text.dropWhile (· == 32)).head? ≠ some 45) ∨
    ∃ front last, text = front ++ 45 :: last ∧ (∀ b ∈ front, b = 45 ∨ b = 32) ∧
      (last.dropWhile (· == 32)).head? ≠ some 45 ∧
      leadingDashes count after text = (count + front.count 45 + 1, last) := by
  induction text generalizing count after with
  | nil => exact .inl ⟨rfl, by simp⟩
  | cons b rest ih =>
      by_cases hdash : b = 45
      · subst hdash
        rw [leadingDashes, if_pos rfl]
        obtain ⟨hstop, hnext⟩ | ⟨front, last, rfl, hfront, hlast, hcount⟩ := ih (count + 1) rest
        · exact .inr ⟨[], rest, rfl, by simp, hnext, by simpa using hstop⟩
        · refine .inr ⟨45 :: front, last, rfl, by simpa using hfront, hlast, ?_⟩
          rw [hcount, List.count_cons_self]
          congr 1
          omega
      · by_cases hblank : b = 32
        · subst hblank
          rw [leadingDashes, if_neg (by decide), if_pos rfl]
          obtain ⟨hstop, hnext⟩ | ⟨front, last, rfl, hfront, hlast, hcount⟩ := ih count after
          · exact .inl ⟨hstop, by simpa using hnext⟩
          · refine .inr ⟨32 :: front, last, rfl, by simpa using hfront, hlast, ?_⟩
            rw [hcount, List.count_cons_of_ne (by decide)]
        · exact .inl ⟨by rw [leadingDashes, if_neg hdash, if_neg hblank], by simp [hdash, hblank]⟩

theorem undashed_beginMark_append {label : Bytes} :
    Undashed (beginMark ++ label) ↔ Undashed label := by
  have hmark : (beginMark.reverse.dropWhile (· == 32)).head? ≠ some 45 := by decide
  rw [Undashed, Undashed, List.reverse_append, List.dropWhile_append]
  split
  · next hempty => simp [List.isEmpty_iff.mp hempty, hmark]
  · next hne =>
      obtain ⟨b, rest, hdrop⟩ := List.exists_cons_of_ne_nil (mt List.isEmpty_iff.mpr hne)
      simp [hdrop]

theorem exists_label {tail front closing : Bytes} (hhead : closing.head? = some 45)
    (hbytes : ∀ b ∈ closing, b = 45 ∨ b = 32) (h : beginMark ++ tail = front ++ closing) :
    ∃ label, front = beginMark ++ label ∧ tail = label ++ closing := by
  have hletter : ∀ suffix ∈ beginMark.tails, suffix.head? = some 45 → 78 ∈ suffix := by decide
  obtain ⟨label, hfront, htail⟩ | ⟨suffix, hmark, hclosing⟩ := List.append_eq_append_iff.mp h
  · exact ⟨label, hfront, htail⟩
  · cases suffix with
    | nil => exact ⟨[], by simpa using hmark.symm, hclosing.symm⟩
    | cons b rest =>
        have hsuffix : b :: rest ∈ beginMark.tails :=
          (List.mem_tails _ _).mpr ⟨front, hmark.symm⟩
        have hmem := hletter _ hsuffix (by rw [← hhead, hclosing]; rfl)
        have hnone := hbytes 78 (hclosing ▸ List.mem_append_left _ hmem)
        simp at hnone

theorem exists_closing {line label : Bytes} (hbegin : beginMark <+: line)
    (hlabel : beginLabel? line = some label) :
    ∃ closing, Closes label closing ∧ line = beginMark ++ label ++ closing := by
  obtain ⟨tail, rfl⟩ := hbegin
  rw [beginLabel?] at hlabel
  obtain ⟨hstop, -⟩ | ⟨front, last, hsplit, hfront, hlast, hcount⟩ :=
    leadingDashes_cases 0 (beginMark ++ tail).reverse (beginMark ++ tail).reverse
  · rw [hstop] at hlabel
    simp at hlabel
  · rw [hcount] at hlabel
    obtain ⟨hfive, hlabel⟩ := Option.ite_none_right_eq_some.mp hlabel
    -- it is counted from the end of the line, so what is left over is its front
    have hforward : beginMark ++ tail = last.reverse ++ 45 :: front.reverse := by
      rw [← List.reverse_reverse (beginMark ++ tail), hsplit]
      simp
    have hbytes : ∀ b ∈ 45 :: front.reverse, b = 45 ∨ b = 32 := by simpa using hfront
    obtain ⟨found, hfound, rfl⟩ := exists_label rfl hbytes hforward
    obtain rfl : found = label := by simpa [hfound] using hlabel
    refine ⟨_, ⟨rfl, hbytes, ?_, ?_⟩, (List.append_assoc _ _ _).symm⟩
    · rw [List.count_cons_self, List.count_reverse]
      omega
    · rw [← undashed_beginMark_append, ← hfound, Undashed, List.reverse_reverse]
      exact hlast

theorem Closes.beginLabel? {label closing : Bytes} (h : Closes label closing) :
    beginLabel? (beginMark ++ label ++ closing) = some label := by
  obtain ⟨hhead, hbytes, hdashes, hundashed⟩ := h
  obtain ⟨others, rfl⟩ := List.head?_eq_some_iff.mp hhead
  obtain ⟨-, hothers⟩ := List.forall_mem_cons.mp hbytes
  have hreverse : (beginMark ++ label ++ 45 :: others).reverse =
      others.reverse ++ 45 :: (beginMark ++ label).reverse := by simp
  have hcount : 0 + others.reverse.count 45 + 1 = 5 := by
    rw [List.count_cons_self] at hdashes
    rw [List.count_reverse]
    omega
  rw [Pem.beginLabel?, hreverse, leadingDashes_append (by simpa using hothers), hcount,
    leadingDashes_stop (undashed_beginMark_append.mpr hundashed)]
  simp

/-- The lines that begin a section are these and no others. -/
theorem begins_iff {line label : Bytes} :
    beginMark <+: line ∧ beginLabel? line = some label ↔
      ∃ closing, Closes label closing ∧ line = beginMark ++ label ++ closing := by
  constructor
  · rintro ⟨hbegin, hlabel⟩
    exact exists_closing hbegin hlabel
  · rintro ⟨closing, hcloses, rfl⟩
    exact ⟨by simp, hcloses.beginLabel?⟩

end RegistryFront.Pem
