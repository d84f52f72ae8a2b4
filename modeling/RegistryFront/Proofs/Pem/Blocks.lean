import RegistryFront.Proofs.Pem.Sections

/-!
# Texts put together from sections

A text may hold sections of all kinds, good and bad, with other lines around them.  What is read of it
is what each of them gives, in their order; none has a part in what another one gives.
-/

namespace RegistryFront.Pem

def Item.certificate? : Item → Option Bytes
  | .whole .certificate der => some der
  | _ => none

theorem certificates_eq (text : Bytes) : certificates text = (items text).filterMap Item.certificate? := by
  refine congrArg (List.filterMap · (items text)) (funext fun item => ?_)
  cases item with
  | broken => rfl
  | whole kind der => cases kind <;> rfl

inductive Block where
  | outside (line : Bytes) (hline : ¬ beginMark <+: line)
  | malformed (line : Bytes) (hbegin : beginMark <+: line) (hlabel : beginLabel? line = none)
  | closed (first : Bytes) (label : Bytes) (body : List Bytes) (last : Bytes)
      (hbegin : beginMark <+: first) (hlabel : beginLabel? first = some label)
      (hbody : ∀ line ∈ body, ¬ beginMark <+: line ∧ ¬ endMark label <+: line)
      (hend : endMark label <+: last)

namespace Block

def lines : Block → List Bytes
  | outside line _ => [line]
  | malformed line _ _ => [line]
  | closed first _ body last _ _ _ _ => first :: (body ++ [last])

def item? : Block → Option Item
  | outside _ _ => none
  | malformed _ _ _ => some .broken
  | closed _ label body _ _ _ _ _ => Begun.item? ⟨label, body.flatten⟩

end Block

theorem scan_block (block : Block) (more : List Bytes) :
    scan none (block.lines ++ more) = block.item?.toList ++ scan none more := by
  cases block with
  | outside line hline =>
      exact scan_outside (List.forall_mem_singleton.mpr hline) more
  | malformed line hbegin hlabel =>
      rw [← List.isPrefixOf_iff_prefix] at hbegin
      simp [Block.lines, Block.item?, scan, hbegin, hlabel]
  | closed first label body last hbegin hlabel hbody hend =>
      calc scan none (first :: (body ++ [last]) ++ more)
        _ = scan (some ⟨label, []⟩) (body ++ last :: more) := by
            rw [List.cons_append, scan_first hbegin hlabel, List.append_assoc,
              List.singleton_append]
        _ = scan (some ⟨label, body.flatten⟩) (last :: more) := scan_open hbody [] _
        _ = (Begun.item? ⟨label, body.flatten⟩).toList ++ scan none more :=
            scan_last hend body.flatten more

theorem items_of_blocks {text : Bytes} {blocks : List Block}
    (h : lines text = blocks.flatMap Block.lines) : items text = blocks.filterMap Block.item? := by
  rw [items, h]
  clear h
  induction blocks with
  | nil => rfl
  | cons block blocks ih =>
      rw [List.flatMap_cons, scan_block, ih]
      cases hitem : block.item? <;> simp [hitem]

end RegistryFront.Pem
