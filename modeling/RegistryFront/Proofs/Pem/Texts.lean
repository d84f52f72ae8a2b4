import RegistryFront.Proofs.Base64.Bits
import RegistryFront.Proofs.Pem.Blocks
import RegistryFront.Proofs.Pem.Layout
import RegistryFront.Proofs.Pem.Writer

/-!
# Texts of sections

A text that is made of sections, with other lines around them and line breaks of any form, is read as
what its sections hold.  A section that cannot be read is no obstacle for the certificates behind it,
and an end for the search for a key.
-/

namespace RegistryFront.Pem

/-! ## Sections -/

structure Section where
  label : Bytes
  /-- What stands behind the label in the first line. -/
  closing : Bytes
  body : List Bytes
  /-- What stands behind the mark in the last line. -/
  trailing : Bytes
  closes : Closes label closing
  plain : ∀ line ∈ body, ¬ beginMark <+: line ∧ ¬ endMark label <+: line

namespace Section

variable (s : Section)

def lines : List Bytes :=
  (beginMark ++ s.label ++ s.closing) :: (s.body ++ [endMark s.label ++ s.trailing])

def block : Block :=
  let begins := begins_iff.mpr ⟨s.closing, s.closes, rfl⟩
  .closed (beginMark ++ s.label ++ s.closing) s.label s.body (endMark s.label ++ s.trailing)
    begins.1 begins.2 s.plain (List.prefix_append _ _)

def contents? : Option Bytes := Base64.decode? s.body.flatten

def item? : Option Item := Begun.item? ⟨s.label, s.body.flatten⟩

end Section

/-- These lines are those of the sections, in their order, with others around them that begin
nothing. -/
inductive Holds : List Bytes → List Section → Prop where
  | nil : Holds [] []
  | outside {line : Bytes} (hline : ¬ beginMark <+: line) {others : List Bytes}
      {sections : List Section} (hrest : Holds others sections) : Holds (line :: others) sections
  | within (s : Section) {others : List Bytes} {sections : List Section}
      (hrest : Holds others sections) : Holds (s.lines ++ others) (s :: sections)

theorem scan_of_holds {parts : List Bytes} {sections : List Section} (h : Holds parts sections) :
    scan none parts = sections.filterMap Section.item? := by
  induction h with
  | nil => rfl
  | outside hline hrest ih =>
      exact (scan_outside (List.forall_mem_singleton.mpr hline) _).trans ih
  | within s hrest ih =>
      have hblock := scan_block s.block
      change ∀ more, scan none (s.lines ++ more) = s.item?.toList ++ scan none more at hblock
      simp only [hblock, ih, List.filterMap_eq_flatMap_toList, List.flatMap_cons]

theorem items_of_sections {parts : List Bytes} {text : Bytes} {sections : List Section}
    (hlaid : Laid parts text) (hholds : Holds parts sections) :
    items text = sections.filterMap Section.item? :=
  (scan_of_laid hlaid none).trans (scan_of_holds hholds)

/-! ## Certificates -/

theorem labelBytes_inj {kind other : Kind} : kind.labelBytes = other.labelBytes ↔ kind = other := by
  refine ⟨fun h => ?_, congrArg Kind.labelBytes⟩
  have hkinds := congrArg Kind.ofLabel? h
  rw [ofLabel?_labelBytes, ofLabel?_labelBytes] at hkinds
  exact Option.some.inj hkinds

theorem Item.certificate?_whole (kind : Kind) (contents : Bytes) :
    certificate? (.whole kind contents) = if kind = .certificate then some contents else none := by
  cases kind <;> rfl

theorem ofLabel?_eq_some_iff {label : Bytes} {kind : Kind} :
    Kind.ofLabel? label = some kind ↔ label = kind.labelBytes := by
  constructor
  · intro h
    have hfound : kind.labelBytes = label := by simpa using List.find?_some h
    exact hfound.symm
  · rintro rfl
    exact ofLabel?_labelBytes kind

namespace Section

variable {s : Section}

theorem item?_of_label {kind : Kind} (h : s.label = kind.labelBytes) :
    s.item? = some (match s.contents? with
      | some contents => .whole kind contents
      | none => .broken) := by
  rw [item?, Begun.item?, ofLabel?_eq_some_iff.mpr h]
  rfl

theorem item?_of_unhandled (h : ∀ kind : Kind, s.label ≠ kind.labelBytes) : s.item? = none := by
  have hnone : Kind.ofLabel? s.label = none :=
    Option.eq_none_iff_forall_ne_some.mpr fun kind hkind => h kind (ofLabel?_eq_some_iff.mp hkind)
  rw [item?, Begun.item?, hnone]
  rfl

def certificate? (s : Section) : Option Bytes :=
  if s.label = Text.Utf8.encode "CERTIFICATE" then s.contents? else none

theorem bind_certificate? (s : Section) : s.item?.bind Item.certificate? = s.certificate? := by
  have hlabel : Text.Utf8.encode "CERTIFICATE" = Kind.certificate.labelBytes := rfl
  rw [certificate?, hlabel]
  by_cases hhandled : ∃ kind : Kind, s.label = kind.labelBytes
  · obtain ⟨kind, hkind⟩ := hhandled
    rw [item?_of_label hkind, hkind, Option.bind_some]
    cases s.contents? with
    | none => simp [Item.certificate?]
    | some contents => simp [Item.certificate?_whole, labelBytes_inj]
  · rw [not_exists] at hhandled
    rw [item?_of_unhandled hhandled, if_neg (hhandled .certificate)]
    rfl

end Section

theorem certificates_of_sections {parts : List Bytes} {text : Bytes} {sections : List Section}
    (hlaid : Laid parts text) (hholds : Holds parts sections) :
    certificates text = sections.filterMap Section.certificate? := by
  rw [certificates_eq, items_of_sections hlaid hholds, List.filterMap_filterMap]
  exact congrArg (List.filterMap · sections) (funext Section.bind_certificate?)

/-! ## Keys -/

def KeyFormat.label : KeyFormat → String
  | .pkcs1 => "RSA PRIVATE KEY"
  | .pkcs8 => "PRIVATE KEY"
  | .sec1 => "EC PRIVATE KEY"

theorem keyFormat?_eq_some_iff {kind : Kind} {format : KeyFormat} :
    kind.keyFormat? = some format ↔ kind.labelBytes = Text.Utf8.encode format.label := by
  cases kind <;> cases format <;> decide

theorem exists_keyFormat (format : KeyFormat) : ∃ kind : Kind, kind.keyFormat? = some format := by
  cases format
  · exact ⟨.rsaPrivateKey, rfl⟩
  · exact ⟨.privateKey, rfl⟩
  · exact ⟨.ecPrivateKey, rfl⟩

/-- Who looks for a key reads on behind this section: it holds none, and it can be read unless its
label is not handled. -/
structure Section.Passed (s : Section) : Prop where
  no_key : ∀ format : KeyFormat, s.label ≠ Text.Utf8.encode format.label
  readable : ∀ kind : Kind, s.label = kind.labelBytes → s.contents?.isSome

theorem firstKey?_section (s : Section) (rest : List Item) (format : KeyFormat) (contents : Bytes) :
    firstKey? (s.item?.toList ++ rest) = some (format, contents) ↔
      (s.label = Text.Utf8.encode format.label ∧ s.contents? = some contents) ∨
        (s.Passed ∧ firstKey? rest = some (format, contents)) := by
  by_cases hhandled : ∃ kind : Kind, s.label = kind.labelBytes
  · obtain ⟨kind, hkind⟩ := hhandled
    rw [Section.item?_of_label hkind, hkind, ← keyFormat?_eq_some_iff]
    cases hcontents : s.contents? with
    | none =>
        have hstuck : ¬ s.Passed := fun hpassed => by
          simpa [hcontents] using hpassed.readable kind hkind
        simp [firstKey?, hstuck]
    | some found =>
        cases hformat : kind.keyFormat? with
        | none =>
            have hpassed : s.Passed := by
              refine ⟨fun other hother => ?_, fun _ _ => by rw [hcontents]; rfl⟩
              rw [hkind, ← keyFormat?_eq_some_iff, hformat] at hother
              cases hother
            simp [firstKey?, hformat, hpassed]
        | some other =>
            have hkey : ¬ s.Passed := fun hpassed =>
              hpassed.no_key other (hkind.trans (keyFormat?_eq_some_iff.mp hformat))
            simp [firstKey?, hformat, hkey]
  · rw [not_exists] at hhandled
    -- the labels for keys are all handled
    have hno (format : KeyFormat) : s.label ≠ Text.Utf8.encode format.label := by
      obtain ⟨kind, hkind⟩ := exists_keyFormat format
      exact fun hlabel => hhandled kind (hlabel.trans (keyFormat?_eq_some_iff.mp hkind).symm)
    have hpassed : s.Passed := ⟨hno, fun kind hkind => absurd hkind (hhandled kind)⟩
    simp [Section.item?_of_unhandled hhandled, hno, hpassed]

theorem firstKey?_sections (sections : List Section) (format : KeyFormat) (contents : Bytes) :
    firstKey? (sections.filterMap Section.item?) = some (format, contents) ↔
      ∃ before s after, sections = before ++ s :: after ∧ (∀ other ∈ before, other.Passed) ∧
        s.label = Text.Utf8.encode format.label ∧ s.contents? = some contents := by
  induction sections with
  | nil => simp [firstKey?]
  | cons first rest ih =>
      have hitems : (first :: rest).filterMap Section.item? =
          first.item?.toList ++ rest.filterMap Section.item? := by
        simp only [List.filterMap_eq_flatMap_toList, List.flatMap_cons]
      rw [hitems, firstKey?_section, ih]
      constructor
      · rintro (⟨hlabel, hcontents⟩ | ⟨hpassed, before, s, after, rfl, hbefore, hkey⟩)
        · exact ⟨[], first, rest, rfl, List.forall_mem_nil _, hlabel, hcontents⟩
        · exact ⟨first :: before, s, after, rfl, List.forall_mem_cons.mpr ⟨hpassed, hbefore⟩, hkey⟩
      · rintro ⟨before, s, after, hsections, hbefore, hkey⟩
        cases before with
        | nil =>
            obtain ⟨rfl, -⟩ := List.cons.inj hsections
            exact .inl hkey
        | cons other before =>
            obtain ⟨rfl, rfl⟩ := List.cons.inj hsections
            obtain ⟨hpassed, hbefore⟩ := List.forall_mem_cons.mp hbefore
            exact .inr ⟨hpassed, before, s, after, rfl, hbefore, hkey⟩

/-! ## What is written -/

def Section.neat (label : Bytes) (hlabel : Undashed label) (body : List Bytes)
    (hbody : ∀ line ∈ body, 45 ∉ line) : Section where
  label := label
  closing := dashes
  body := body
  trailing := []
  closes := ⟨rfl, by simp [dashes], rfl, hlabel⟩
  plain := fun line hline => plain_of_dashless (hbody line hline) label

theorem laid_wrap {parts : List Bytes} {rest : Bytes} (hrest : Laid parts rest) (width : Nat)
    {text : Bytes} (h : 10 ∉ text ∧ 13 ∉ text) :
    ∃ pieces, pieces.flatten = text ∧ Laid (pieces ++ parts) (wrap width text ++ rest) := by
  fun_induction wrap width text with
  | case1 => exact ⟨[], rfl, hrest⟩
  | case2 b text ih =>
      have hunbroken {part : Bytes} (hpart : part ⊆ b :: text) : 10 ∉ part ∧ 13 ∉ part :=
        ⟨fun hmem => h.1 (hpart hmem), fun hmem => h.2 (hpart hmem)⟩
      have hline := hunbroken (List.cons_subset_cons b (List.take_subset width text))
      obtain ⟨pieces, hpieces, hlaid⟩ :=
        ih (hunbroken (List.subset_cons_of_subset b (List.drop_subset width text)))
      refine ⟨(b :: text.take width) :: pieces, by simp [hpieces], ?_⟩
      simpa [Break.bytes] using Laid.cons hline .feed hlaid

theorem laid_write {parts : List Bytes} {rest : Bytes} (hrest : Laid parts rest) (kind : Kind)
    (contents : Bytes) :
    ∃ s : Section, s.item? = some (.whole kind contents) ∧
      Laid (s.lines ++ parts) (write kind contents ++ rest) := by
  have hsolid {b : UInt8} (hspace : Base64.isSpace b = true) : b ∉ Base64.encode contents := by
    intro hmem
    simp [(Base64.mem_encode hmem).1] at hspace
  have hend := Laid.cons (endMark_unbroken kind) .feed hrest
  obtain ⟨pieces, hpieces, hwrap⟩ := laid_wrap hend (lineWidth - 1)
    ⟨hsolid rfl, hsolid rfl⟩
  -- there is no dash in base64, so no line of the body is taken for one that begins or ends something
  have hdashless : ∀ line ∈ pieces, 45 ∉ line := by
    intro line hline hdash
    have hmem : 45 ∈ Base64.encode contents := hpieces ▸ List.mem_flatten_of_mem hline hdash
    exact (Base64.mem_encode hmem).2.1 rfl
  have hundashed : Undashed kind.labelBytes := by cases kind <;> decide
  refine ⟨.neat kind.labelBytes hundashed pieces hdashless, ?_, ?_⟩
  · rw [Section.item?_of_label rfl]
    simp [Section.contents?, Section.neat, hpieces, Base64.decode?_encode]
  · simpa [Section.lines, Section.neat, write, beginLine, Break.bytes] using
      Laid.cons (beginLine_unbroken kind) .feed hwrap

/-- What is written one behind the other is read back as it was. -/
theorem items_flatMap_write (kind : Kind) (bodies : List Bytes) :
    items (bodies.flatMap (write kind)) = bodies.map (Item.whole kind) := by
  obtain ⟨parts, sections, hlaid, hholds, hitems⟩ : ∃ parts sections,
      Laid parts (bodies.flatMap (write kind)) ∧ Holds parts sections ∧
        sections.filterMap Section.item? = bodies.map (Item.whole kind) := by
    induction bodies with
    | nil => exact ⟨[], [], .nil, .nil, rfl⟩
    | cons contents bodies ih =>
        obtain ⟨parts, sections, hlaid, hholds, hitems⟩ := ih
        obtain ⟨s, hitem, hlaid⟩ := laid_write hlaid kind contents
        exact ⟨s.lines ++ parts, s :: sections, hlaid, .within s hholds, by simp [hitem, hitems]⟩
  rw [items_of_sections hlaid hholds, hitems]

theorem certificates_flatMap_write (ders : List Bytes) :
    certificates (ders.flatMap (write .certificate)) = ders := by
  rw [certificates_eq, items_flatMap_write, List.filterMap_map]
  exact List.filterMap_some

/-! ## What a text holds -/

/-- The certificates of a text are those of its sections, in their order, and its key is that of the
first section for one, unless a section that is handled cannot be read up to there.  A section begins
with a line of one form, and its body stands for the bytes that it spells. -/
theorem sections_read :
    (∀ {line label : Bytes}, beginMark <+: line ∧ beginLabel? line = some label ↔
      ∃ closing, Closes label closing ∧ line = beginMark ++ label ++ closing) ∧
    (∀ (s : Section) (contents : Bytes),
      s.contents? = some contents ↔ Base64.Spells s.body.flatten contents) ∧
    (∀ {parts : List Bytes} {text : Bytes} {sections : List Section}, Laid parts text →
      Holds parts sections →
      certificates text = sections.filterMap Section.certificate? ∧
      ∀ format contents, privateKey? text = some (format, contents) ↔
        ∃ before s after, sections = before ++ s :: after ∧ (∀ other ∈ before, other.Passed) ∧
          s.label = Text.Utf8.encode format.label ∧ s.contents? = some contents) ∧
    ∀ ders, certificates (ders.flatMap (write .certificate)) = ders := by
  refine ⟨begins_iff, fun _ _ => Base64.decode?_eq_some_iff, fun hlaid hholds => ?_,
    certificates_flatMap_write⟩
  refine ⟨certificates_of_sections hlaid hholds, fun format contents => ?_⟩
  rw [privateKey?, items_of_sections hlaid hholds, firstKey?_sections]

namespace Bundle

def short (label : String) (hlabel : Undashed (Text.Utf8.encode label)) (line : String)
    (hline : 45 ∉ Text.Utf8.encode line) : Section :=
  .neat (Text.Utf8.encode label) hlabel [Text.Utf8.encode line] (by simpa using hline)

def first : Section := short "CERTIFICATE" (by decide) "Zmlyc3Q=" (by decide)

def parameters : Section := short "DH PARAMETERS" (by decide) "?" (by decide)

def key : Section := short "PRIVATE KEY" (by decide) "a2V5" (by decide)

def spoilt : Section := short "CERTIFICATE" (by decide) "?" (by decide)

def last : Section := short "CERTIFICATE" (by decide) "bGFzdA" (by decide)

def note : Bytes := Text.Utf8.encode "Bag Attributes"

def parts : List (Bytes × Break) :=
  (note, .both) :: first.lines.map (·, .both) ++ parameters.lines.map (·, .carriageReturn) ++
    (note, .feed) :: key.lines.map (·, .feed) ++ spoilt.lines.map (·, .feed) ++
    last.lines.dropLast.map (·, .both)

def text : Bytes := withBreaks parts (endMark last.label)

theorem laid_text : Laid (parts.map Prod.fst ++ [endMark last.label]) text :=
  laid_withBreaks (by decide) (by decide)

theorem holds_parts :
    Holds (parts.map Prod.fst ++ [endMark last.label]) [first, parameters, key, spoilt, last] := by
  have hnote : ¬ beginMark <+: note := by decide
  exact .outside hnote (.within first (.within parameters (.outside hnote
    (.within key (.within spoilt (.within last .nil))))))

theorem passed_first : first.Passed where
  no_key format := by cases format <;> decide
  readable _ _ := by decide

theorem passed_parameters : parameters.Passed where
  no_key format := by cases format <;> decide
  readable kind := by cases kind <;> decide

end Bundle

theorem sections_read_bundle :
    Laid (Bundle.parts.map Prod.fst ++ [endMark Bundle.last.label]) Bundle.text ∧
    Holds (Bundle.parts.map Prod.fst ++ [endMark Bundle.last.label])
      [Bundle.first, Bundle.parameters, Bundle.key, Bundle.spoilt, Bundle.last] ∧
    certificates Bundle.text = [Text.Utf8.encode "first", Text.Utf8.encode "last"] ∧
    privateKey? Bundle.text = some (.pkcs8, Text.Utf8.encode "key") := by
  obtain ⟨hcertificates, hkey⟩ := sections_read.2.2.1 Bundle.laid_text Bundle.holds_parts
  refine ⟨Bundle.laid_text, Bundle.holds_parts, hcertificates.trans (by decide),
    (hkey _ _).mpr ⟨[Bundle.first, Bundle.parameters], Bundle.key, [Bundle.spoilt, Bundle.last], rfl,
      ?_, by decide, by decide⟩⟩
  exact List.forall_mem_cons.mpr ⟨Bundle.passed_first,
    List.forall_mem_singleton.mpr Bundle.passed_parameters⟩

end RegistryFront.Pem
