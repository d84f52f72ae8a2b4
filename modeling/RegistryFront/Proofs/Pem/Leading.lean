import Mathlib.Data.List.Basic
import Mathlib.Data.List.TakeWhile
import RegistryFront.Pem.Leading
import RegistryFront.Proofs.Pem.Writer

/-!
# Where the two readers agree

The loose reader takes the first section whatever its label, and lines end with a line feed for it;
the other one looks at the labels, and a carriage return ends a line too.  When the first section is a
certificate and nothing stands in it that only one of them minds, both read the same bytes.
-/

namespace RegistryFront.Pem

open Base64 (isSpace)
open Text (dropWhileEnd isBlank)
open Text.Utf8 (encodeChars)

namespace Leading

/-! ## Lines -/

variable {text : List Char}

theorem lines_feed (text : List Char) : lines ('\n' :: text) = ['\n'] :: lines text := rfl

theorem lines_cons {c : Char} (hc : c ≠ '\n') {line : List Char} {others : List (List Char)}
    (htext : lines text = line :: others) : lines (c :: text) = (c :: line) :: others := by
  rw [lines, if_neg hc, htext]

theorem lines_last {c : Char} (hc : c ≠ '\n') : lines [c] = [[c]] := if_neg hc

theorem lines_ne_nil (h : text ≠ []) : lines text ≠ [] := by
  induction text with
  | nil => exact absurd rfl h
  | cons c rest ih =>
      by_cases hc : c = '\n'
      · simp [hc, lines_feed]
      · cases rest with
        | nil => simp [lines_last hc]
        | cons next rest =>
            obtain ⟨line, others, hrest⟩ := List.exists_cons_of_ne_nil (ih (by simp))
            simp [lines_cons hc hrest]

theorem exists_lines_feed (front : List Char) :
    ∃ line others, lines (front ++ ['\n']) = line :: others :=
  List.exists_cons_of_ne_nil (lines_ne_nil (by simp))

theorem flatten_lines (text : List Char) : (lines text).flatten = text := by
  induction text with
  | nil => rfl
  | cons c rest ih =>
      by_cases hc : c = '\n'
      · rw [hc, lines_feed, List.flatten_cons, ih]
        rfl
      · cases rest with
        | nil => rw [lines_last hc]; rfl
        | cons next rest =>
            obtain ⟨line, others, hrest⟩ :=
              List.exists_cons_of_ne_nil (lines_ne_nil (List.cons_ne_nil next rest))
            rw [hrest] at ih
            rw [lines_cons hc hrest, ← ih]
            rfl

theorem filter_eq_flatMap_lines (p : Char → Bool) (text : List Char) :
    text.filter p = (lines text).flatMap (List.filter p) := by
  have hflatten := congrArg (List.filter p) (flatten_lines text)
  rw [List.filter_flatten, ← List.flatMap_def] at hflatten
  exact hflatten.symm

theorem lines_append_feed (front rest : List Char) :
    lines (front ++ '\n' :: rest) = lines (front ++ ['\n']) ++ lines rest := by
  induction front with
  | nil => rw [List.nil_append, List.nil_append, lines_feed, lines_feed]; rfl
  | cons c front ih =>
      rw [List.cons_append, List.cons_append]
      by_cases hc : c = '\n'
      · rw [hc, lines_feed, lines_feed, ih, List.cons_append]
      · obtain ⟨line, others, hfront⟩ := exists_lines_feed front
        rw [hfront, List.cons_append] at ih
        rw [lines_cons hc ih, lines_cons hc hfront, List.cons_append]

theorem lines_append_ended (h : Ended '\n' text) (rest : List Char) :
    lines (text ++ rest) = lines text ++ lines rest := by
  obtain rfl | ⟨front, rfl⟩ := h
  · rfl
  · rw [List.append_assoc]
    exact lines_append_feed front rest

theorem feed_of_mem_lines (h : Ended '\n' text) {line : List Char} (hline : line ∈ lines text) :
    ∃ front, line = front ++ ['\n'] := by
  obtain rfl | ⟨front, rfl⟩ := h
  · cases hline
  · induction front generalizing line with
    | nil =>
        obtain rfl := List.mem_singleton.mp hline
        exact ⟨[], rfl⟩
    | cons c front ih =>
        rw [List.cons_append] at hline
        by_cases hc : c = '\n'
        · rw [hc, lines_feed] at hline
          rcases List.mem_cons.mp hline with rfl | hline
          · exact ⟨[], rfl⟩
          · exact ih hline
        · obtain ⟨first, others, hfront⟩ := exists_lines_feed front
          rw [lines_cons hc hfront] at hline
          rw [hfront] at ih
          rcases List.mem_cons.mp hline with rfl | hline
          · obtain ⟨less, rfl⟩ := ih List.mem_cons_self
            exact ⟨c :: less, rfl⟩
          · exact ih (List.mem_cons_of_mem _ hline)

theorem exists_of_mem_lines (h : Ended '\n' text) {line : List Char} (hline : line ∈ lines text) :
    ∃ before after, Ended '\n' before ∧ text = before ++ (line ++ after) := by
  obtain ⟨earlier, later, hsplit⟩ := List.append_of_mem hline
  refine ⟨earlier.flatten, later.flatten, ?_, ?_⟩
  · rcases List.eq_nil_or_concat earlier with rfl | ⟨others, last, rfl⟩
    · exact .inl rfl
    · have hmem : last ∈ lines text := by simp [hsplit]
      obtain ⟨front, hlast⟩ := feed_of_mem_lines h hmem
      exact .inr ⟨others.flatten ++ front, by simp [hlast]⟩
  · rw [← flatten_lines text, hsplit]
    simp

theorem lines_append {line : List Char} (hline : '\n' ∉ line) {first : List Char}
    {others : List (List Char)} (htext : lines text = first :: others) :
    lines (line ++ text) = (line ++ first) :: others := by
  induction line with
  | nil => exact htext
  | cons c line ih =>
      rw [List.mem_cons, not_or] at hline
      exact lines_cons (Ne.symm hline.1) (ih hline.2)

theorem exists_lines_append {line : List Char} (hline : '\n' ∉ line) (hne : line ≠ [])
    (rest : List Char) : ∃ tail others, lines (line ++ rest) = (line ++ tail) :: others := by
  cases hrest : lines rest with
  | cons first others => exact ⟨first, others, lines_append hline hrest⟩
  | nil =>
      obtain rfl : rest = [] := by_contra fun h => lines_ne_nil h hrest
      obtain ⟨front, c, rfl⟩ := (List.eq_nil_or_concat' line).resolve_left hne
      have hc : c ≠ '\n' := fun hc => hline (hc ▸ by simp)
      have hfront : '\n' ∉ front := fun hmem => hline (List.mem_append_left _ hmem)
      exact ⟨[], [], by rw [List.append_nil]; exact lines_append hfront (lines_last hc)⟩

/-! ## Reading line by line -/

theorem afterHeader_outside {front : List (List Char)} (h : ∀ line ∈ front, ¬ beginMark <+: line)
    (more : List (List Char)) : afterHeader (front ++ more) = afterHeader more := by
  induction front with
  | nil => rfl
  | cons line front ih =>
      obtain ⟨hline, hfront⟩ := List.forall_mem_cons.mp h
      rw [← List.isPrefixOf_iff_prefix] at hline
      rw [List.cons_append, afterHeader, if_neg hline, ih hfront]

theorem bodyOf_inside {pieces : List (List Char)} (h : ∀ line ∈ pieces, ¬ endMark <+: line)
    {last : List Char} (hlast : endMark <+: last) (more : List (List Char)) :
    bodyOf (pieces ++ last :: more) = .ok (pieces.flatMap (dropWhileEnd isBlank)) := by
  induction pieces with
  | nil =>
      rw [← List.isPrefixOf_iff_prefix] at hlast
      rw [List.nil_append, bodyOf, if_pos hlast]
      rfl
  | cons line pieces ih =>
      obtain ⟨hline, hpieces⟩ := List.forall_mem_cons.mp h
      rw [← List.isPrefixOf_iff_prefix] at hline
      rw [List.cons_append, bodyOf, if_neg hline, ih hpieces]
      rfl

theorem contains_append (part front rest : List Char) :
    contains part (front ++ (part ++ rest)) = true := by
  induction front with
  | nil =>
      have hleads : part.isPrefixOf (part ++ rest) = true :=
        List.isPrefixOf_iff_prefix.mpr (List.prefix_append _ _)
      rw [List.nil_append]
      cases hpart : part ++ rest with
      | nil =>
          obtain rfl := (List.append_eq_nil_iff.mp hpart).1
          rfl
      | cons c others =>
          rw [hpart] at hleads
          rw [contains, hleads, Bool.true_or]
  | cons c front ih => rw [List.cons_append, contains, ih, Bool.or_true]

theorem decode_ok {body : List Char} {der : List UInt8} (h : decode body = .ok der) :
    Base64.encode der = encodeChars body := by
  rw [decode] at h
  split at h
  · split at h
    · next heq => cases h; exact heq
    · cases h
  · cases h

/-! ## White space -/

theorem filter_dropWhileEnd {p q : Char → Bool} {line : List Char}
    (h : ∀ c ∈ line, q c = true → p c = false) :
    (dropWhileEnd q line).filter p = line.filter p := by
  have hdropped : (line.reverse.takeWhile q).filter p = [] := by
    rw [List.filter_eq_nil_iff]
    intro c hc
    have hmem := List.mem_reverse.mp (List.takeWhile_subset _ hc)
    simp [h c hmem (List.mem_takeWhile_imp hc)]
  have hcut := congrArg (List.filter p) (List.takeWhile_append_dropWhile (p := q) (l := line.reverse))
  rw [List.filter_append, hdropped, List.nil_append] at hcut
  rw [dropWhileEnd, List.filter_reverse, hcut, ← List.filter_reverse, List.reverse_reverse]

theorem dropWhileEnd_feed {line : List Char} (h : ∀ c ∈ line, isBlank c = false) :
    dropWhileEnd isBlank (line ++ ['\n']) = line := by
  have hkept : line.reverse.dropWhile isBlank = line.reverse := by
    rw [List.dropWhile_eq_self_iff]
    intro hpos
    exact Bool.eq_false_iff.mp (h _ (List.mem_reverse.mp (List.getElem_mem hpos)))
  have hblank : isBlank '\n' = true := by decide
  rw [dropWhileEnd, List.reverse_append, List.reverse_singleton, List.singleton_append,
    List.dropWhile_cons_of_pos hblank, hkept, List.reverse_reverse]

theorem isSpace_of_isBlank {c : Char} (hascii : c.toNat < 128) (hblank : isBlank c = true) :
    isSpace (UInt8.ofNat c.toNat) = true := by
  have hall : ∀ n < 128, isBlank (Char.ofNat n) = true → isSpace (UInt8.ofNat n) = true := by decide
  exact hall c.toNat hascii (by rwa [Char.ofNat_toNat])

theorem dropWhileEnd_subset (q : Char → Bool) (line : List Char) : dropWhileEnd q line ⊆ line := by
  intro c hc
  rw [dropWhileEnd, List.mem_reverse] at hc
  exact List.mem_reverse.mp (List.dropWhile_subset _ hc)

theorem filter_encodeChars {body : List Char} {der : List UInt8} (hascii : ∀ c ∈ body, c.toNat < 128)
    (h : decode ((lines body).flatMap (dropWhileEnd isBlank)) = .ok der) :
    (encodeChars body).filter (fun b => !isSpace b) = Base64.encode der := by
  have hlines : ∀ line ∈ lines body, ∀ c ∈ line, c.toNat < 128 := by
    intro line hline c hc
    have hmem := List.mem_flatten_of_mem hline hc
    rw [flatten_lines] at hmem
    exact hascii c hmem
  have hread : ∀ c ∈ (lines body).flatMap (dropWhileEnd isBlank), c.toNat < 128 := by
    intro c hc
    obtain ⟨line, hline, hc⟩ := List.mem_flatMap.mp hc
    exact hlines line hline c (dropWhileEnd_subset _ _ hc)
  rw [← Base64.filter_encode, decode_ok h, Text.Utf8.encodeChars_of_ascii hascii,
    Text.Utf8.encodeChars_of_ascii hread, List.filter_map, List.filter_map,
    filter_eq_flatMap_lines _ body, List.filter_flatMap]
  -- what is cut off the ends of lines is white space, and does not count on either side
  refine congrArg (List.map _) (List.flatMap_congr fun line hline => ?_)
  refine (filter_dropWhileEnd fun c hc hblank => ?_).symm
  simp [isSpace_of_isBlank (hlines line hline c hc) hblank]

end Leading

/-! ## Orderly texts -/

def certificateBegin : List Char :=
  Leading.beginMark ++ Kind.certificate.label.toList ++ Leading.dashes

def certificateEnd : List Char :=
  Leading.endMark ++ Kind.certificate.label.toList ++ Leading.dashes

structure Parts (before blanks body : List Char) : Prop where
  before_ended : Ended '\n' before
  begins_none : ∀ line ∈ lines (encodeChars before), ¬ beginMark <+: line
  blanks : ∀ c ∈ blanks, c = ' ' ∨ c = '\r'
  body_ended : Ended '\n' body
  ascii : ∀ c ∈ body, c.toNat < 128
  undashed : '-' ∉ body

def joined (before blanks body after : List Char) : List Char :=
  before ++ (certificateBegin ++ blanks ++ '\n' :: (body ++ (certificateEnd ++ after)))

/-- The first section is a certificate, it begins and ends with lines of its own, and its body is
ASCII. -/
def Orderly (text : String) : Prop :=
  ∃ before blanks body after, Parts before blanks body ∧
    text.toList = joined before blanks body after

theorem Ended.encodeChars {text : List Char} (h : Ended '\n' text) :
    Ended 10 (encodeChars text) := by
  obtain rfl | ⟨front, rfl⟩ := h
  · exact .inl rfl
  · exact .inr ⟨Text.Utf8.encodeChars front, Text.Utf8.encodeChars_append front ['\n']⟩

section

variable {before blanks body : List Char}

theorem Parts.not_begins (h : Parts before blanks body) :
    ∀ line ∈ Leading.lines before, ¬ Leading.beginMark <+: line := by
  rintro _ hline ⟨tail, rfl⟩
  -- a line of the loose reader may be several of the other's, the first of which has the mark
  obtain ⟨front, rest, hfront, rfl⟩ := Leading.exists_of_mem_lines h.before_ended hline
  obtain ⟨pieces, -, hlines⟩ := hfront.encodeChars.pieces
  obtain ⟨first, others, hrest⟩ := List.exists_cons_of_ne_nil
    (lines_ne_nil (encodeChars tail ++ encodeChars rest))
  have hmark : encodeChars Leading.beginMark = beginMark := by decide
  have hunbroken : 10 ∉ beginMark ∧ 13 ∉ beginMark := by decide
  refine h.begins_none (beginMark ++ first) ?_ (List.prefix_append _ _)
  rw [Text.Utf8.encodeChars_append, Text.Utf8.encodeChars_append, Text.Utf8.encodeChars_append,
    hmark, hlines, List.append_assoc, lines_append hunbroken hrest]
  simp

theorem Parts.undashed_bytes (h : Parts before blanks body) : 45 ∉ encodeChars body := by
  rw [Text.Utf8.encodeChars_of_ascii h.ascii]
  intro hdash
  obtain ⟨c, hc, heq⟩ := List.mem_map.mp hdash
  have hlt := h.ascii c hc
  have hnat := congrArg UInt8.toNat heq
  rw [UInt8.toNat_ofNat_of_lt' (show _ < 256 by omega)] at hnat
  have hchar : c = '-' := Char.ext (UInt32.toNat_inj.mp hnat)
  exact h.undashed (hchar ▸ hc)

theorem encodeChars_joined (before blanks body after : List Char) :
    encodeChars (joined before blanks body after) =
      encodeChars before ++ sectionOf .certificate (encodeChars blanks) (encodeChars body) ++
        encodeChars after := by
  have hbegin : encodeChars certificateBegin = beginLine .certificate := by decide
  have hend : encodeChars certificateEnd = endMark Kind.certificate.labelBytes := by decide
  have hfeed (rest : List Char) : encodeChars ('\n' :: rest) = 10 :: encodeChars rest := rfl
  simp only [joined, sectionOf, Text.Utf8.encodeChars_append, hfeed, hbegin, hend,
    List.append_assoc, List.cons_append]

theorem Parts.items (h : Parts before blanks body) {der : List UInt8}
    (hder : (encodeChars body).filter (fun b => !isSpace b) = Base64.encode der) (after : List Char) :
    ∃ more, items (encodeChars (joined before blanks body after)) =
      .whole .certificate der :: scan none more := by
  have hblanks : ∀ b ∈ encodeChars blanks, b = 32 ∨ b = 13 := by
    intro b hb
    obtain ⟨c, hc, hb⟩ := List.mem_flatMap.mp hb
    rcases h.blanks c hc with rfl | rfl <;> simp_all [Text.Utf8.encodeChar]
  rw [encodeChars_joined]
  exact items_of_section .certificate h.before_ended.encodeChars h.begins_none hblanks
    h.body_ended.encodeChars h.undashed_bytes hder (encodeChars after)

theorem Parts.lines (h : Parts before blanks body) (after : List Char) :
    ∃ tail more, Leading.lines (joined before blanks body after) =
      Leading.lines before ++ (certificateBegin ++ (blanks ++ ['\n'])) ::
        (Leading.lines body ++ (certificateEnd ++ tail) :: more) := by
  have hbegin : '\n' ∉ certificateBegin ++ blanks := by
    rw [List.mem_append, not_or]
    refine ⟨by decide, fun hmem => ?_⟩
    rcases h.blanks _ hmem with heq | heq <;> exact absurd heq (by decide)
  obtain ⟨tail, more, hend⟩ := Leading.exists_lines_append
    (show '\n' ∉ certificateEnd by decide) (by decide +kernel) after
  refine ⟨tail, more, ?_⟩
  rw [joined, Leading.lines_append_ended h.before_ended,
    Leading.lines_append hbegin (Leading.lines_feed _), Leading.lines_append_ended h.body_ended, hend,
    List.append_assoc certificateBegin]

theorem afterHeader_begin (tail : List Char) (more : List (List Char)) :
    Leading.afterHeader ((certificateBegin ++ tail) :: more) = .ok more := by
  have hmark : Leading.beginMark.isPrefixOf (certificateBegin ++ tail) = true := by
    rw [List.isPrefixOf_iff_prefix, certificateBegin, List.append_assoc, List.append_assoc]
    exact List.prefix_append _ _
  have hdashes : Leading.contains Leading.dashes
      ((certificateBegin ++ tail).drop Leading.dashes.length) = true := by
    have hsplit : certificateBegin =
        Leading.dashes ++ ("BEGIN CERTIFICATE".toList ++ Leading.dashes) := by decide
    rw [hsplit, List.append_assoc, List.append_assoc, List.drop_left]
    exact Leading.contains_append _ _ _
  rw [Leading.afterHeader, if_pos hmark, if_pos hdashes]

theorem Parts.not_ends (h : Parts before blanks body) :
    ∀ line ∈ Leading.lines body, ¬ Leading.endMark <+: line := by
  rintro line hline ⟨rest, rfl⟩
  have hdash : '-' ∈ (Leading.lines body).flatten :=
    List.mem_flatten_of_mem hline (List.mem_append_left _ (by decide))
  rw [Leading.flatten_lines] at hdash
  exact h.undashed hdash

theorem Parts.bodyOf (h : Parts before blanks body) (after : List Char) :
    ∃ behind, Leading.afterHeader (Leading.lines (joined before blanks body after)) = .ok behind ∧
      Leading.bodyOf behind = .ok ((Leading.lines body).flatMap (dropWhileEnd isBlank)) := by
  obtain ⟨tail, more, hlines⟩ := h.lines after
  have hmark : Leading.endMark <+: certificateEnd ++ tail := by
    rw [certificateEnd, List.append_assoc, List.append_assoc]
    exact List.prefix_append _ _
  refine ⟨Leading.lines body ++ (certificateEnd ++ tail) :: more, ?_,
    Leading.bodyOf_inside h.not_ends hmark more⟩
  rw [hlines, Leading.afterHeader_outside h.not_begins, afterHeader_begin]

/-- The first section of an orderly text is the first certificate. -/
theorem Orderly.certificates {text : String} (h : Orderly text) {der : List UInt8}
    (hleading : leading text = .ok der) :
    ∃ rest, certificates (Text.Utf8.encode text) = der :: rest := by
  obtain ⟨before, blanks, body, after, hparts, htext⟩ := h
  obtain ⟨behind, hbehind, hbody⟩ := hparts.bodyOf after
  rw [leading, htext, hbehind] at hleading
  simp only [bind, Except.bind, hbody] at hleading
  obtain ⟨more, hitems⟩ := hparts.items (Leading.filter_encodeChars hparts.ascii hleading) after
  rw [Pem.certificates, Text.Utf8.encode, htext, hitems]
  exact ⟨_, rfl⟩

end

/-! ## What is written -/

def asChars (bytes : Bytes) : List Char := bytes.map fun b => Char.ofNat b.toNat

theorem asChars_append (front rest : Bytes) : asChars (front ++ rest) = asChars front ++ asChars rest :=
  List.map_append

theorem toNat_of_mem_asChars {bytes : Bytes} (h : ∀ b ∈ bytes, b < 128) {c : Char}
    (hc : c ∈ asChars bytes) : c.toNat < 128 ∧ UInt8.ofNat c.toNat ∈ bytes := by
  obtain ⟨b, hb, rfl⟩ := List.mem_map.mp hc
  rw [Text.Utf8.toNat_ofNat_byte, UInt8.ofNat_toNat]
  exact ⟨UInt8.lt_iff_toNat_lt.mp (h b hb), hb⟩

theorem flatMap_lines_wrap (width : Nat) {text : Bytes}
    (h : ∀ c ∈ asChars text, isBlank c = false) :
    (Leading.lines (asChars (wrap width text))).flatMap (dropWhileEnd isBlank) = asChars text := by
  fun_induction wrap width text with
  | case1 => rfl
  | case2 b rest ih =>
      have hwhole : asChars (b :: rest) =
          asChars (b :: rest.take width) ++ asChars (rest.drop width) := by
        rw [← asChars_append, List.cons_append, List.take_append_drop]
      rw [hwhole] at h ⊢
      obtain ⟨hline, hlater⟩ := List.forall_mem_append.mp h
      have hfeed : '\n' ∉ asChars (b :: rest.take width) := fun hmem =>
        absurd (hline _ hmem) (by decide)
      have hlines : Leading.lines (asChars (b :: rest.take width ++ 10 :: wrap width (rest.drop width))) =
          (asChars (b :: rest.take width) ++ ['\n']) ::
            Leading.lines (asChars (wrap width (rest.drop width))) := by
        rw [asChars_append]
        exact Leading.lines_append hfeed (Leading.lines_feed _)
      rw [hlines, List.flatMap_cons, Leading.dropWhileEnd_feed hline, ih hlater]

theorem not_isBlank_of_mem_encode {contents : Bytes} :
    ∀ c ∈ asChars (Base64.encode contents), isBlank c = false := by
  intro c hc
  obtain ⟨hascii, hmem⟩ := toNat_of_mem_asChars (fun b hb => (Base64.mem_encode hb).2.2) hc
  refine Bool.eq_false_iff.mpr fun hblank => ?_
  exact absurd (Leading.isSpace_of_isBlank hascii hblank) (by simp [(Base64.mem_encode hmem).1])

theorem parts_bodyLines (contents : Bytes) : Parts [] [] (asChars (bodyLines contents)) where
  before_ended := .inl rfl
  begins_none := by decide
  blanks := nofun
  body_ended := by
    obtain hnil | ⟨front, hfront⟩ := ended_wrap (lineWidth - 1) (Base64.encode contents)
    · exact .inl (congrArg asChars hnil)
    · exact .inr ⟨asChars front, (congrArg asChars hfront).trans (asChars_append front [10])⟩
  ascii c hc := (toNat_of_mem_asChars (fun b hb => (mem_bodyLines hb).2) hc).1
  undashed hmem :=
    (mem_bodyLines (toNat_of_mem_asChars (fun b hb => (mem_bodyLines hb).2) hmem).2).1 rfl

theorem toList_writeText (contents : Bytes) :
    (writeText .certificate contents).toList = joined [] [] (asChars (bodyLines contents)) ['\n'] := by
  have hbegin : asChars (beginLine .certificate) = certificateBegin := by decide
  have hend : asChars (endMark Kind.certificate.labelBytes) = certificateEnd := by decide
  rw [writeText, String.toList_ofList]
  change asChars (write .certificate contents) = _
  have hfeed (rest : Bytes) : asChars (10 :: rest) = '\n' :: asChars rest := rfl
  have hnil : asChars [] = [] := rfl
  rw [write_eq, sectionOf]
  simp [asChars_append, hfeed, hnil, hbegin, hend, joined]

theorem orderly_writeText (contents : Bytes) : Orderly (writeText .certificate contents) :=
  ⟨[], [], _, _, parts_bodyLines contents, toList_writeText contents⟩

/-- What is written as a certificate is read back by the loose reader too. -/
theorem leading_writeText (contents : Bytes) : leading (writeText .certificate contents) = .ok contents := by
  obtain ⟨behind, hbehind, hbody⟩ := (parts_bodyLines contents).bodyOf ['\n']
  rw [leading, toList_writeText, hbehind]
  simp only [bind, Except.bind, hbody]
  rw [bodyLines, flatMap_lines_wrap _ not_isBlank_of_mem_encode, Leading.decode, asChars,
    Text.Utf8.encodeChars_map_ofNat fun b hb => (Base64.mem_encode hb).2.2]
  simp [Base64.decode?_encode]

end RegistryFront.Pem
