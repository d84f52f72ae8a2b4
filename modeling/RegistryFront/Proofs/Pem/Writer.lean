import RegistryFront.Pem.Writer
import RegistryFront.Proofs.Pem.Sections
import RegistryFront.Proofs.Text.Utf8

/-!
# Sections come back from what is written
-/

namespace RegistryFront.Pem

open Base64 (isSpace)

/-! ## Lines of one width -/

theorem filter_wrap (width : Nat) (text : Bytes) :
    (wrap width text).filter (fun b => !isSpace b) = text.filter fun b => !isSpace b := by
  fun_induction wrap width text with
  | case1 => rfl
  | case2 b rest ih =>
      have hbreak : (10 :: wrap width (rest.drop width)).filter (fun b => !isSpace b) =
          (wrap width (rest.drop width)).filter fun b => !isSpace b := rfl
      rw [List.filter_append, hbreak, ih, ← List.filter_append, List.cons_append,
        List.take_append_drop]

theorem ended_wrap (width : Nat) (text : Bytes) : Ended 10 (wrap width text) := by
  fun_induction wrap width text with
  | case1 => exact .inl rfl
  | case2 b rest ih =>
      obtain hnil | ⟨front, hfront⟩ := ih
      · exact .inr ⟨b :: rest.take width, by rw [hnil]⟩
      · exact .inr ⟨b :: rest.take width ++ 10 :: front, by simp [hfront]⟩

theorem mem_wrap {width : Nat} {text : Bytes} {b : UInt8} (h : b ∈ wrap width text) :
    b ∈ text ∨ b = 10 := by
  fun_induction wrap width text with
  | case1 => exact .inl h
  | case2 first rest ih =>
      simp only [List.cons_append, List.mem_cons, List.mem_append] at h
      rcases h with rfl | h | rfl | h
      · exact .inl List.mem_cons_self
      · exact .inl (List.mem_cons_of_mem _ (List.mem_of_mem_take h))
      · exact .inr rfl
      · exact (ih h).imp_left fun hmem => List.mem_cons_of_mem _ (List.mem_of_mem_drop hmem)

/-! ## Sections -/

def bodyLines (contents : Bytes) : Bytes := wrap (lineWidth - 1) (Base64.encode contents)

theorem write_eq (kind : Kind) (contents : Bytes) :
    write kind contents = sectionOf kind [] (bodyLines contents) ++ [10] := by
  simp [write, sectionOf, beginLine, bodyLines]

theorem mem_bodyLines {contents : Bytes} {b : UInt8} (h : b ∈ bodyLines contents) :
    b ≠ 45 ∧ b < 128 := by
  rcases mem_wrap h with h | rfl
  · exact (Base64.mem_encode h).2
  · decide

theorem items_write (kind : Kind) (contents : Bytes) :
    ∃ more, items (write kind contents) = .whole kind contents :: scan none more := by
  have hskipped : ∀ line ∈ lines [], ¬ beginMark <+: line := by
    intro line hline hleads
    obtain rfl : line = [] := List.mem_singleton.mp hline
    exact absurd (congrArg List.length (List.prefix_nil.mp hleads)) (by decide)
  have hblanks : ∀ b ∈ ([] : Bytes), b = 32 ∨ b = 13 := nofun
  have hdashes : 45 ∉ bodyLines contents := fun hdash => (mem_bodyLines hdash).1 rfl
  have hcontents : (bodyLines contents).filter (fun b => !isSpace b) = Base64.encode contents := by
    rw [bodyLines, filter_wrap, Base64.filter_encode]
  rw [write_eq]
  exact items_of_section kind (.inl rfl) hskipped hblanks (ended_wrap _ _) hdashes hcontents [10]

theorem privateKey?_write {kind : Kind} {format : KeyFormat} (h : kind.keyFormat? = some format)
    (contents : Bytes) : privateKey? (write kind contents) = some (format, contents) := by
  obtain ⟨more, hitems⟩ := items_write kind contents
  simp [privateKey?, hitems, firstKey?, h]

/-! ## Texts -/

theorem ascii_write (kind : Kind) (contents : Bytes) : ∀ b ∈ write kind contents, b < 128 := by
  have hmarks : (beginLine kind ++ endMark kind.labelBytes).all (fun b => decide (b < 128)) = true := by
    cases kind <;> rfl
  obtain ⟨hbegin, hend⟩ : (∀ b ∈ beginLine kind, b < 128) ∧ ∀ b ∈ endMark kind.labelBytes, b < 128 := by
    simpa [or_imp, forall_and] using hmarks
  rw [write_eq, sectionOf, List.append_nil]
  simp only [List.forall_mem_append, List.forall_mem_cons]
  exact ⟨⟨hbegin, by decide, fun b hb => (mem_bodyLines hb).2, hend⟩, by decide, List.forall_mem_nil _⟩

theorem encode_writeText (kind : Kind) (contents : Bytes) :
    Text.Utf8.encode (writeText kind contents) = write kind contents := by
  rw [Text.Utf8.encode, writeText, String.toList_ofList]
  exact Text.Utf8.encodeChars_map_ofNat (ascii_write kind contents)

end RegistryFront.Pem
