import ContractBindings.Module.Comment
import ContractBindings.Proofs.Module.Text
import ContractBindings.Proofs.Text.Alphabet
import Mathlib.Data.List.Chain

/-!
# Comments line by line

What sanitizing leaves out: line breaks (`over_sanitize`), and every star with a slash behind it
(`unclosed_sanitize`). The second is a property of neighbours, so where texts are put together it
has to be looked at what the first ends in or what the second begins with, and nothing else
(`Unclosed.append`, `Unclosed.append_of_over`).

The comments of a module are of few kinds: the first line of a block, a line of its text and its
last line, and at the top of a module fixed texts, labels in front of sanitized text and the hash.
What holds of each kind holds of all lines (`forall_mem_docBlock`, `forall_mem_headerContents`).
-/

namespace ContractBindings.Module

open Binding
open Text (Over)

variable {s t : String}

/-! ### Sanitized text -/

/-- Sanitizing leaves out line breaks. -/
theorem over_sanitize (s : String) : Over (fun c ↦ c != '\r' && c != '\n') (sanitize s) := by
  rw [Over, sanitize, String.toList_ofList]
  generalize s.toList = l
  fun_induction sanitizeChars l with
  | case1 rest ih => simpa using ih
  | case2 c rest hpair ih =>
    refine List.forall_mem_cons.2 ⟨?_, ih⟩
    split
    case isTrue => rfl
    case isFalse hc => simpa using hc
  | case3 => exact List.forall_mem_nil _

/-- Sanitizing puts no slash in front of a text. -/
theorem head?_sanitizeChars_ne {s : List Char} (hs : s.head? ≠ some '/') :
    (sanitizeChars s).head? ≠ some '/' := by
  fun_cases sanitizeChars s with
  | case1 => simp
  | case2 c rest hpair =>
    have hc : c ≠ '/' := by simpa using hs
    rw [List.head?_cons, ne_eq, Option.some.injEq]
    split
    · decide
    · exact hc
  | case3 => simp

/-! ### Texts that end no comment -/

/-- What a text ends in is seen in its last piece. -/
theorem getLast?_append_ofList {l : List Char} (hl : l ≠ []) :
    (s ++ String.ofList l).toList.getLast? = l.getLast? := by
  rw [String.toList_append, String.toList_ofList, List.getLast?_append_of_ne_nil _ hl]

/-- A text that ends no comment: no star in it has a slash behind it. -/
def Unclosed (s : String) : Prop :=
  s.toList.IsChain fun a b ↦ a = '*' → b ≠ '/'

namespace Unclosed

theorem literal {l : List Char} (h : l.IsChain fun a b ↦ a = '*' → b ≠ '/') :
    Unclosed (String.ofList l) := by
  rwa [Unclosed, String.toList_ofList]

/-- A text without stars ends no comment. -/
theorem of_over (h : Over (· != '*') s) : Unclosed s :=
  (List.pairwise_of_forall_mem_list fun _ ha _ _ hstar ↦
    absurd hstar (bne_iff_ne.1 (h _ ha))).isChain

/-- Texts are put together where the first does not end in a star. -/
theorem append (hs : Unclosed s) (ht : Unclosed t) (hlast : s.toList.getLast? ≠ some '*') :
    Unclosed (s ++ t) := by
  rw [Unclosed, String.toList_append, List.isChain_append]
  refine ⟨hs, ht, fun a ha b _ hstar ↦ absurd ?_ hlast⟩
  rw [← hstar]
  exact ha

/-- Behind a text may stand what has no slash. -/
theorem append_of_over (hs : Unclosed s) (ht : Over (· != '/') t) : Unclosed (s ++ t) := by
  have hslash : ∀ b ∈ t.toList, b ≠ '/' := fun b hb ↦ bne_iff_ne.1 (ht b hb)
  rw [Unclosed, String.toList_append, List.isChain_append]
  refine ⟨hs, ?_, fun a _ b hb _ ↦ hslash b (List.mem_of_mem_head? hb)⟩
  exact (List.pairwise_of_forall_mem_list fun a _ b hb (_ : a = '*') ↦ hslash b hb).isChain

/-- In front of a text may stand what has no star. -/
theorem over_append (hs : Over (· != '*') s) (ht : Unclosed t) : Unclosed (s ++ t) :=
  .append (.of_over hs) ht fun hlast ↦ hs.not_mem rfl (List.mem_of_getLast? hlast)

/-- Lines that end no comment end none together: a line feed stands between them. -/
theorem text {lines : Lines} (h : ∀ line ∈ lines, Unclosed line) : Unclosed lines.text := by
  induction lines with
  | nil => exact .nil
  | cons line lines ih =>
    obtain ⟨hline, hlines⟩ := List.forall_mem_cons.1 h
    rw [Lines.text_cons]
    refine .append (hline.append_of_over (.literal rfl)) (ih hlines) ?_
    exact (getLast?_append_ofList (by decide)).trans_ne (by decide)

end Unclosed

/-- **Sanitized text ends no comment.** -/
theorem unclosed_sanitize (s : String) : Unclosed (sanitize s) := by
  rw [Unclosed, sanitize, String.toList_ofList]
  generalize s.toList = l
  fun_induction sanitizeChars l with
  | case1 rest ih =>
    -- The closer is taken apart by a backslash, and the slash behind it starts nothing.
    refine .cons_cons (by simp) (.cons_cons (by simp) (List.isChain_cons.2 ⟨by simp, ih⟩))
  | case2 c rest hpair ih =>
    refine List.isChain_cons.2 ⟨fun d hd hstar ↦ ?_, ih⟩
    rintro rfl
    -- A slash behind the star would be one of the source, which the first case takes.
    refine head?_sanitizeChars_ne (fun hhead ↦ ?_) hd
    have hc : c = '*' := by
      split at hstar
      · exact absurd hstar (by decide)
      · exact hstar
    cases rest with
    | nil => cases hhead
    | cons d more =>
      obtain rfl : d = '/' := by simpa using hhead
      exact hpair more hc rfl
  | case3 => exact .nil

theorem unclosed_label {label : List Char} (h : label.all (· != '*') = true) (s : String) :
    Unclosed (String.ofList label ++ sanitize s) :=
  .over_append (.literal h) (unclosed_sanitize s)

/-! ### Blocks of documentation -/

/-- The star in front of a line is followed by a blank. -/
theorem unclosed_docLine {indent : String} (h : Over (· != '*') indent) (s : String) :
    Unclosed (indent ++ " * " ++ sanitize s) :=
  .append (.over_append h (.literal (by decide))) (unclosed_sanitize s)
    ((getLast?_append_ofList (by decide)).trans_ne (by decide))

/-- The kinds of lines of a block of documentation. -/
theorem forall_mem_docBlock {q : String → Prop} {indent : String} (hopen : q (indent ++ "/**"))
    (hline : ∀ text, q (indent ++ " * " ++ sanitize text)) (hclose : q (indent ++ " */"))
    (lines : List String) : ∀ line ∈ docBlock indent lines, q line := by
  rw [docBlock, List.forall_mem_append, List.forall_mem_cons, List.forall_mem_map]
  exact ⟨⟨hopen, fun text _ ↦ hline text⟩, List.forall_mem_singleton.2 hclose⟩

/-- Line breaks stand between the lines of documentation only. -/
theorem over_docBlock {indent : String} (h : Over (· == ' ') indent) (lines : List String) :
    ∀ line ∈ docBlock indent lines, Over (fun c ↦ c != '\r' && c != '\n') line := by
  have hindent : Over (fun c ↦ c != '\r' && c != '\n') indent :=
    h.mono fun c hc ↦ by rw [eq_of_beq hc]; rfl
  exact forall_mem_docBlock (hindent.append (.literal rfl))
    (fun text ↦ (hindent.append (.literal rfl)).append (over_sanitize text))
    (hindent.append (.literal rfl)) lines

/-! ### The top of a module -/

theorem toList_comment (content : String) :
    (comment content).toList = "/* ".toList ++ (content.toList ++ " */".toList) := by
  rw [comment, String.toList_append, String.toList_append, List.append_assoc]

/-- What the comments at the top of a module hold. -/
def headerContents (p : Plan) (description : String) : List String :=
  ["Auto-generated by " ++ toolName ++ ": " ++ description,
    "WARNING: Do not modify this file directly. It is generated from the contract " ++ "manifest.",
    "Contract: " ++ sanitize p.manifestName] ++
    (if p.supportedStandards.isEmpty then []
      else ["Supported standards: " ++ sanitize (", ".intercalate p.supportedStandards)]) ++
    (p.scriptHash.map fun hash ↦ "Script hash: " ++ hash.text).toList

theorem header_eq (p : Plan) (description : String) :
    header p description = (headerContents p description).map comment ++ [""] := by
  rw [header, headerContents, List.map_append, List.map_append]
  congr 2
  · congr 1
    split
    · rfl
    · rfl
  · rcases p.scriptHash with _ | hash
    · rfl
    · rfl

/-- The kinds of comments at the top of a module. -/
theorem forall_mem_headerContents {q : String → Prop} {p : Plan} {description : String}
    (hdescription : q ("Auto-generated by " ++ toolName ++ ": " ++ description))
    (hwarning : q ("WARNING: Do not modify this file directly. It is generated from the contract " ++
      "manifest."))
    (hlabel : ∀ label ∈ ["Contract: ", "Supported standards: "], ∀ text, q (label ++ sanitize text))
    (hhash : ∀ hash : ScriptHash, q ("Script hash: " ++ hash.text)) :
    ∀ content ∈ headerContents p description, q content := by
  obtain ⟨hname, hstandards, -⟩ := by simpa only [List.forall_mem_cons] using hlabel
  simp only [headerContents, List.forall_mem_append, List.forall_mem_cons]
  refine ⟨⟨⟨hdescription, hwarning, hname _, List.forall_mem_nil _⟩, ?_⟩, ?_⟩
  · split
    · exact List.forall_mem_nil _
    · exact List.forall_mem_singleton.2 (hstandards _)
  · intro content hcontent
    obtain ⟨hash, -, rfl⟩ := Option.map_eq_some_iff.1 (Option.mem_toList.1 hcontent)
    exact hhash hash

end ContractBindings.Module
