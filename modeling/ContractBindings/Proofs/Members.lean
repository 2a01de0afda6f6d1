import ContractBindings.Members
import Mathlib.Data.List.Induction
import Mathlib.Data.String.Basic

/-!
# Members in order

Bringing members in order gives ascending ones, whose values are all among the given ones, and
leaves members that are in order as they are (`ofList_of_ascending`).
-/

namespace ContractBindings.Members

variable {α : Type} {name : String} {value : α} {members : Members α}

/-- Members in ascending order of their names, each name once. -/
def Ascending (members : Members α) : Prop :=
  members.Pairwise fun a b ↦ a.1 < b.1

theorem eq_or_mem_of_mem_insert {member : String × α} (h : member ∈ insert name value members) :
    member = (name, value) ∨ member ∈ members := by
  induction members with
  | nil => exact .inl (List.mem_singleton.1 h)
  | cons first rest ih =>
    rw [insert] at h
    split at h
    case isTrue => exact List.mem_cons.1 h
    case isFalse =>
      split at h
      case isTrue => exact (List.mem_cons.1 h).imp_right (List.mem_cons_of_mem _)
      case isFalse =>
        rcases List.mem_cons.1 h with rfl | h
        · exact .inr List.mem_cons_self
        · exact (ih h).imp_right (List.mem_cons_of_mem _)

/-- What is put under a name is found there. -/
theorem get?_insert (name : String) (value : α) (members : Members α) :
    get? name (insert name value members) = some value := by
  rw [get?]
  induction members with
  | nil => exact List.lookup_cons_self
  | cons first rest ih =>
    rw [insert]
    split
    case isTrue => exact List.lookup_cons_self
    case isFalse =>
      split
      case isTrue => exact List.lookup_cons_self
      case isFalse hne => rw [List.lookup_cons, beq_eq_false_iff_ne.2 hne, ih]

theorem ascending_insert (h : Ascending members) : Ascending (insert name value members) := by
  induction members with
  | nil => exact List.pairwise_singleton _ _
  | cons first rest ih =>
    obtain ⟨hfirst, hrest⟩ := List.pairwise_cons.1 h
    rw [insert]
    split
    case isTrue hlt =>
      refine List.pairwise_cons.2 ⟨List.forall_mem_cons.2 ⟨hlt, fun member hmember ↦ ?_⟩, h⟩
      exact lt_trans hlt (hfirst member hmember)
    case isFalse hge =>
      split
      case isTrue heq => exact List.pairwise_cons.2 ⟨heq ▸ hfirst, hrest⟩
      case isFalse hne =>
        refine List.pairwise_cons.2 ⟨fun member hmember ↦ ?_, ih hrest⟩
        rcases eq_or_mem_of_mem_insert hmember with rfl | hmember
        · exact (lt_or_gt_of_ne hne).resolve_left hge
        · exact hfirst member hmember

/-- A member behind all others is put at the end. -/
theorem insert_of_forall_lt (h : ∀ member ∈ members, member.1 < name) :
    insert name value members = members ++ [(name, value)] := by
  induction members with
  | nil => rfl
  | cons first rest ih =>
    obtain ⟨hfirst, hrest⟩ := List.forall_mem_cons.1 h
    rw [insert, if_neg (lt_asymm hfirst), if_neg (ne_of_gt hfirst), ih hrest, List.cons_append]

theorem ofList_append_singleton (members : Members α) (member : String × α) :
    ofList (members ++ [member]) = insert member.1 member.2 (ofList members) :=
  List.foldl_concat _ _ _ _

theorem ascending_ofList (members : List (String × α)) : Ascending (ofList members) := by
  induction members using List.reverseRecOn with
  | nil => exact .nil
  | append_singleton members member ih =>
    rw [ofList_append_singleton]
    exact ascending_insert ih

theorem mem_of_mem_ofList {member : String × α} {members : List (String × α)}
    (h : member ∈ ofList members) : member ∈ members := by
  induction members using List.reverseRecOn with
  | nil => exact h
  | append_singleton members last ih =>
    rw [ofList_append_singleton] at h
    rcases eq_or_mem_of_mem_insert h with rfl | h
    · exact List.mem_append_right _ List.mem_cons_self
    · exact List.mem_append_left _ (ih h)

/-- **Members in order stay as they are.** -/
theorem ofList_of_ascending (h : Ascending members) : ofList members = members := by
  induction members using List.reverseRecOn with
  | nil => rfl
  | append_singleton members member ih =>
    obtain ⟨hmembers, -, hlast⟩ := List.pairwise_append.1 h
    rw [ofList_append_singleton, ih hmembers]
    exact insert_of_forall_lt fun other hother ↦ hlast other hother member List.mem_cons_self

end ContractBindings.Members
