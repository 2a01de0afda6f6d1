import ContractBindings.AbiType
import ContractBindings.Proofs.Text.PrefixFree
import Mathlib.Data.List.Nodup

/-!
# Styles of writing types

Types are written in several ways, all of one shape: a scalar is a word, and a container is a word,
its contents, and fixed pieces between and behind them (`Style`). Nothing has to be known of the
pieces to read a type back. It is enough that the words are different and none begins another, since
the word tells how many contents follow, and each of these is then read in the same way
(`Style.Readable.write_inj`).
-/

namespace ContractBindings.AbiType

/-- A way to write types: a word for each scalar, and for containers a word in front of their
contents and the pieces between and behind these. -/
structure Style where
  scalar : Scalar → String
  array : String
  arrayEnd : String
  map : String
  mapMiddle : String
  mapEnd : String

namespace Style

/-- A type written in front of `rest`. -/
def write (style : Style) (rest : List Char) : AbiType → List Char
  | .scalar s => (style.scalar s).toList ++ rest
  | .array element => style.array.toList ++ style.write (style.arrayEnd.toList ++ rest) element
  | .map key value =>
    style.map.toList ++
      style.write (style.mapMiddle.toList ++ style.write (style.mapEnd.toList ++ rest) value) key

/-- The words that types are written with. -/
def words (style : Style) : List String :=
  style.array :: style.map :: Scalar.all.map style.scalar

/-- A style whose words are different, and none begins another. -/
structure Readable (style : Style) : Prop where
  nodup : style.words.Nodup
  prefixFree : Text.PrefixFree style.words

variable {style : Style} {a b : AbiType} {s t : List Char}

theorem scalar_mem_words (style : Style) (x : Scalar) : style.scalar x ∈ style.words :=
  .tail _ (.tail _ (List.mem_map_of_mem x.mem_all))

theorem array_mem_words (style : Style) : style.array ∈ style.words :=
  .head _

theorem map_mem_words (style : Style) : style.map ∈ style.words :=
  .tail _ (.head _)

theorem Readable.words_ne (h : style.Readable) : style.array ≠ style.map ∧
    ∀ x, style.array ≠ style.scalar x ∧ style.map ≠ style.scalar x := by
  obtain ⟨harray, hrest⟩ := List.nodup_cons.1 h.nodup
  obtain ⟨hmap, -⟩ := List.nodup_cons.1 hrest
  rw [List.mem_cons, not_or] at harray
  have hmem (x : Scalar) := List.mem_map_of_mem (f := style.scalar) x.mem_all
  exact ⟨harray.1, fun x ↦ ⟨fun heq ↦ harray.2 (heq ▸ hmem x), fun heq ↦ hmap (heq ▸ hmem x)⟩⟩

theorem Readable.scalar_injective (h : style.Readable) : Function.Injective style.scalar := by
  obtain ⟨-, hrest⟩ := List.nodup_cons.1 h.nodup
  obtain ⟨-, hscalars⟩ := List.nodup_cons.1 hrest
  exact fun x y hxy ↦ List.inj_on_of_nodup_map hscalars x.mem_all y.mem_all hxy

/-- **A text begins with at most one type.** -/
theorem Readable.write_inj (h : style.Readable) (heq : style.write s a = style.write t b) :
    a = b ∧ s = t := by
  obtain ⟨harray, hscalar⟩ := h.words_ne
  have hword {word other : String} {s t : List Char} (hw : word ∈ style.words)
      (ho : other ∈ style.words) (heq : word.toList ++ s = other.toList ++ t) :
      word = other ∧ s = t :=
    h.prefixFree.append_inj hw ho heq
  induction a generalizing b s t with
  | scalar x =>
    cases b with
    | scalar y =>
      obtain ⟨hxy, hrest⟩ := hword (scalar_mem_words _ x) (scalar_mem_words _ y) heq
      exact ⟨congrArg _ (h.scalar_injective hxy), hrest⟩
    | array element =>
      exact absurd (hword (scalar_mem_words _ x) (array_mem_words _) heq).1.symm (hscalar x).1
    | map key value =>
      exact absurd (hword (scalar_mem_words _ x) (map_mem_words _) heq).1.symm (hscalar x).2
  | array element ih =>
    cases b with
    | scalar y =>
      exact absurd (hword (array_mem_words _) (scalar_mem_words _ y) heq).1 (hscalar y).1
    | array element' =>
      obtain ⟨rfl, htail⟩ := ih (hword (array_mem_words _) (array_mem_words _) heq).2
      exact ⟨rfl, List.append_cancel_left htail⟩
    | map key value =>
      exact absurd (hword (array_mem_words _) (map_mem_words _) heq).1 harray
  | map key value ihk ihv =>
    cases b with
    | scalar y =>
      exact absurd (hword (map_mem_words _) (scalar_mem_words _ y) heq).1 (hscalar y).2
    | array element =>
      exact absurd (hword (map_mem_words _) (array_mem_words _) heq).1.symm harray
    | map key' value' =>
      obtain ⟨rfl, hvalues⟩ := ihk (hword (map_mem_words _) (map_mem_words _) heq).2
      obtain ⟨rfl, htail⟩ := ihv (List.append_cancel_left hvalues)
      exact ⟨rfl, List.append_cancel_left htail⟩

end Style

end ContractBindings.AbiType
