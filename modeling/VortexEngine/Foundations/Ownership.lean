import Mathlib.Data.List.Nodup
import Mathlib.Logic.Function.Basic

namespace VortexEngine
namespace Foundations

/-!
# Resources and their owners

A system hands out resources and takes them back.  It counts every call that
gives back what is not open, so a resource that is given back twice, or after
somebody else has given it back, leaves a trace.

Owners hold lists of resources.  As long as every held resource is open, no
resource is held twice, and every open resource is held or known to be
abandoned, an owner can give back what it holds without a trace, and hand it
over to an owner that holds nothing.  A program that only does this never gives
anything back twice, and when no owner is left only abandoned resources are
open.
-/

universe u v

structure ResourceTable (Resource : Type u) where
  isOpen : Resource -> Bool
  /-- the calls that gave back what was not open -/
  misuses : Nat

namespace ResourceTable

variable {Resource : Type u} [DecidableEq Resource]

def acquire (table : ResourceTable Resource) (resource : Resource) : ResourceTable Resource :=
  { table with isOpen := Function.update table.isOpen resource true }

def release (table : ResourceTable Resource) (resource : Resource) : ResourceTable Resource :=
  if table.isOpen resource = true then
    { table with isOpen := Function.update table.isOpen resource false }
  else { table with misuses := table.misuses + 1 }

/-- Give back one after the other. -/
def releaseAll (table : ResourceTable Resource)
    (resources : List Resource) : ResourceTable Resource :=
  resources.foldl release table

variable {table after : ResourceTable Resource} {resource : Resource}

theorem release_of_open (opened : table.isOpen resource = true) :
    table.release resource = { table with isOpen := Function.update table.isOpen resource false } :=
  if_pos opened

/-- What is open and listed once is given back without a trace. -/
theorem releaseAll_open {resources : List Resource} (distinct : resources.Nodup)
    (opened : forall resource, resource ∈ resources -> table.isOpen resource = true) :
    (table.releaseAll resources).misuses = table.misuses ∧
      (forall resource, resource ∈ resources ->
        (table.releaseAll resources).isOpen resource = false) ∧
        forall resource, resource ∉ resources ->
          (table.releaseAll resources).isOpen resource = table.isOpen resource := by
  induction resources generalizing table with
  | nil => exact ⟨rfl, fun _ member => absurd member List.not_mem_nil, fun _ _ => rfl⟩
  | cons first rest ih =>
      rcases List.nodup_cons.mp distinct with ⟨apart, distinctRest⟩
      have released := release_of_open (opened first List.mem_cons_self)
      have later : forall resource, resource ∈ rest ->
          (table.release first).isOpen resource = true := by
        intro resource member
        rw [released]
        exact (Function.update_of_ne (ne_of_mem_of_not_mem member apart) _ _).trans
          (opened resource (List.mem_cons_of_mem _ member))
      rcases ih distinctRest later with ⟨clean, closed, kept⟩
      refine ⟨?_, ?_, ?_⟩
      · change ((table.release first).releaseAll rest).misuses = _
        rw [clean, released]
      · intro resource member
        by_cases again : resource ∈ rest
        · exact closed resource again
        · rcases List.mem_cons.mp member with rfl | inRest
          · change ((table.release resource).releaseAll rest).isOpen resource = false
            rw [kept resource again, released]
            exact Function.update_self _ _ _
          · exact absurd inRest again
      · intro resource outside
        have apartFirst : resource ≠ first := fun same => outside (same ▸ List.mem_cons_self)
        have outsideRest : resource ∉ rest := fun inRest => outside (List.mem_cons_of_mem _ inRest)
        change ((table.release first).releaseAll rest).isOpen resource = _
        rw [kept resource outsideRest, released]
        exact Function.update_of_ne apartFirst _ _

/-- Some resources have been opened, each of them once, and nothing else has
happened. -/
structure Opens (table after : ResourceTable Resource) (resources : List Resource) : Prop where
  distinct : resources.Nodup
  closed : forall resource, resource ∈ resources -> table.isOpen resource = false
  listed : forall resource, resource ∈ resources -> after.isOpen resource = true
  others : forall resource, resource ∉ resources -> after.isOpen resource = table.isOpen resource
  clean : after.misuses = table.misuses

omit [DecidableEq Resource] in
theorem Opens.nothing : table.Opens table [] where
  distinct := List.nodup_nil
  closed _ member := absurd member List.not_mem_nil
  listed _ member := absurd member List.not_mem_nil
  others _ _ := rfl
  clean := rfl

theorem Opens.acquire {resources : List Resource} (opens : table.Opens after resources)
    (fresh : table.isOpen resource = false) (outside : resource ∉ resources) :
    table.Opens (after.acquire resource) (resource :: resources) := by
  refine ⟨List.nodup_cons.mpr ⟨outside, opens.distinct⟩, ?_, ?_, ?_, opens.clean⟩
  · intro other member
    rcases List.mem_cons.mp member with rfl | inRest
    · exact fresh
    · exact opens.closed other inRest
  · intro other member
    rcases List.mem_cons.mp member with rfl | inRest
    · exact Function.update_self _ _ _
    · have differs : other ≠ resource := ne_of_mem_of_not_mem inRest outside
      exact (Function.update_of_ne differs _ _).trans (opens.listed other inRest)
  · intro other apart
    rcases not_or.mp (fun member => apart (List.mem_cons.mpr member)) with ⟨differs, outsideRest⟩
    exact (Function.update_of_ne differs _ _).trans (opens.others other outsideRest)

theorem Opens.release {resources : List Resource}
    (opens : table.Opens after (resource :: resources)) :
    table.Opens (after.release resource) resources := by
  rcases List.nodup_cons.mp opens.distinct with ⟨outside, distinct⟩
  rw [release_of_open (opens.listed resource List.mem_cons_self)]
  refine ⟨distinct, fun other member => opens.closed other (List.mem_cons_of_mem _ member), ?_, ?_,
    opens.clean⟩
  · intro other member
    have differs : other ≠ resource := ne_of_mem_of_not_mem member outside
    exact (Function.update_of_ne differs _ _).trans
      (opens.listed other (List.mem_cons_of_mem _ member))
  · intro other apart
    by_cases same : other = resource
    · subst same
      exact (Function.update_self _ _ _).trans (opens.closed other List.mem_cons_self).symm
    · exact (Function.update_of_ne same _ _).trans
        (opens.others other (fun member => (List.mem_cons.mp member).elim same apart))

omit [DecidableEq Resource] in
theorem Opens.perm {resources resources' : List Resource} (opens : table.Opens after resources)
    (same : resources.Perm resources') : table.Opens after resources' where
  distinct := same.nodup_iff.mp opens.distinct
  closed resource member := opens.closed resource (same.mem_iff.mpr member)
  listed resource member := opens.listed resource (same.mem_iff.mpr member)
  others resource outside := opens.others resource (fun member => outside (same.mem_iff.mp member))
  clean := opens.clean

end ResourceTable

/-! ## Owners -/

/-- Held resources are open, held once and not abandoned, open resources are held
or abandoned, and nothing has been given back that was not open. -/
structure Held {Owner : Type v} {Resource : Type u} (table : ResourceTable Resource)
    (claims : Owner -> List Resource) (abandoned : List Resource) : Prop where
  backed : forall owner resource, resource ∈ claims owner -> table.isOpen resource = true
  single : forall owner, (claims owner).Nodup
  apart : forall owner other resource, resource ∈ claims owner -> resource ∈ claims other ->
    owner = other
  lost : forall resource, resource ∈ abandoned ->
    table.isOpen resource = true ∧ forall owner, resource ∉ claims owner
  covered : forall resource, table.isOpen resource = true ->
    resource ∈ abandoned ∨ Exists fun owner => resource ∈ claims owner
  clean : table.misuses = 0

namespace Held

variable {Owner : Type v} {Resource : Type u} [DecidableEq Owner]
variable {table after : ResourceTable Resource} {claims : Owner -> List Resource}
    {abandoned : List Resource}

/-- Some resources are opened for an owner, which keeps some of what it has then
and abandons the rest. -/
theorem exchange (held : Held table claims abandoned) {owner : Owner}
    {fresh kept dropped : List Resource}
    (opens : table.Opens after fresh) (balance : (claims owner ++ fresh).Perm (kept ++ dropped)) :
    Held after (Function.update claims owner kept) (abandoned ++ dropped) := by
  have unclaimed : forall other resource, resource ∈ claims other -> resource ∉ fresh := by
    intro other resource holds member
    have closed := opens.closed resource member
    rw [held.backed other resource holds] at closed
    cases closed
  have stays : forall resource, table.isOpen resource = true -> after.isOpen resource = true := by
    intro resource opened
    by_cases listed : resource ∈ fresh
    · exact opens.listed resource listed
    · exact (opens.others resource listed).trans opened
  have available : forall resource, resource ∈ kept ++ dropped ->
      resource ∈ claims owner ∨ resource ∈ fresh := by
    intro resource member
    exact List.mem_append.mp (balance.mem_iff.mpr member)
  have backed : forall resource, resource ∈ kept ++ dropped -> after.isOpen resource = true := by
    intro resource member
    rcases available resource member with holds | listed
    · exact stays resource (held.backed owner resource holds)
    · exact opens.listed resource listed
  have elsewhere : forall other resource, other ≠ owner -> resource ∈ claims other ->
      resource ∉ kept ++ dropped := by
    intro other resource differs holds member
    rcases available resource member with own | listed
    · exact differs (held.apart other owner resource holds own)
    · exact unclaimed other resource holds listed
  have distinct : (kept ++ dropped).Nodup := by
    refine balance.nodup_iff.mp (List.nodup_append'.mpr ⟨held.single owner, opens.distinct, ?_⟩)
    intro resource holds listed
    exact unclaimed owner resource holds listed
  rcases List.nodup_append'.mp distinct with ⟨distinctKept, _, disjoint⟩
  constructor
  · intro other resource holds
    by_cases same : other = owner
    · subst same
      rw [Function.update_self] at holds
      exact backed resource (List.mem_append_left _ holds)
    · rw [Function.update_of_ne same] at holds
      exact stays resource (held.backed other resource holds)
  · intro other
    by_cases same : other = owner
    · subst same
      rw [Function.update_self]
      exact distinctKept
    · rw [Function.update_of_ne same]
      exact held.single other
  · intro first second resource left right
    by_cases same : first = owner <;> by_cases same' : second = owner
    · exact same.trans same'.symm
    · subst same
      rw [Function.update_self] at left
      rw [Function.update_of_ne same'] at right
      exact absurd (List.mem_append_left _ left) (elsewhere second resource same' right)
    · subst same'
      rw [Function.update_self] at right
      rw [Function.update_of_ne same] at left
      exact absurd (List.mem_append_left _ right) (elsewhere first resource same left)
    · rw [Function.update_of_ne same] at left
      rw [Function.update_of_ne same'] at right
      exact held.apart first second resource left right
  · intro resource member
    rcases List.mem_append.mp member with before | now
    · rcases held.lost resource before with ⟨opened, nobody⟩
      refine ⟨stays resource opened, fun other holds => ?_⟩
      by_cases same : other = owner
      · subst same
        rw [Function.update_self] at holds
        rcases available resource (List.mem_append_left _ holds) with own | listed
        · exact nobody other own
        · have closed := opens.closed resource listed
          rw [opened] at closed
          cases closed
      · rw [Function.update_of_ne same] at holds
        exact nobody other holds
    · refine ⟨backed resource (List.mem_append_right _ now), fun other holds => ?_⟩
      by_cases same : other = owner
      · subst same
        rw [Function.update_self] at holds
        exact disjoint holds now
      · rw [Function.update_of_ne same] at holds
        exact elsewhere other resource same holds (List.mem_append_right _ now)
  · intro resource opened
    have split : resource ∈ claims owner ++ fresh ->
        resource ∈ abandoned ++ dropped ∨ Exists fun other =>
          resource ∈ Function.update claims owner kept other := by
      intro own
      rcases List.mem_append.mp (balance.mem_iff.mp own) with keeps | drops
      · exact Or.inr ⟨owner, by rw [Function.update_self]; exact keeps⟩
      · exact Or.inl (List.mem_append_right _ drops)
    by_cases listed : resource ∈ fresh
    · exact split (List.mem_append_right _ listed)
    · rw [opens.others resource listed] at opened
      rcases held.covered resource opened with left | ⟨other, holds⟩
      · exact Or.inl (List.mem_append_left _ left)
      · by_cases same : other = owner
        · subst same
          exact split (List.mem_append_left _ holds)
        · exact Or.inr ⟨other, by rw [Function.update_of_ne same]; exact holds⟩
  · exact opens.clean.trans held.clean

theorem surrender [DecidableEq Resource] (held : Held table claims abandoned) (owner : Owner) :
    Held (table.releaseAll (claims owner)) (Function.update claims owner []) abandoned := by
  rcases ResourceTable.releaseAll_open (held.single owner) (held.backed owner) with
    ⟨clean, closed, kept⟩
  have others : forall {other resource}, resource ∈ Function.update claims owner [] other ->
      other ≠ owner ∧ resource ∈ claims other := by
    intro other resource holds
    by_cases same : other = owner
    · subst same
      rw [Function.update_self] at holds
      cases holds
    · rw [Function.update_of_ne same] at holds
      exact ⟨same, holds⟩
  constructor
  · intro other resource holds
    rcases others holds with ⟨differs, claimed⟩
    rw [kept resource (fun own => differs (held.apart other owner resource claimed own))]
    exact held.backed other resource claimed
  · intro other
    by_cases same : other = owner
    · subst same
      rw [Function.update_self]
      exact List.nodup_nil
    · rw [Function.update_of_ne same]
      exact held.single other
  · intro first second resource left right
    exact held.apart first second resource (others left).2 (others right).2
  · intro resource member
    rcases held.lost resource member with ⟨opened, nobody⟩
    rw [kept resource (nobody owner)]
    exact ⟨opened, fun other holds => nobody other (others holds).2⟩
  · intro resource opened
    have outside : resource ∉ claims owner := by
      intro own
      rw [closed resource own] at opened
      cases opened
    rw [kept resource outside] at opened
    rcases held.covered resource opened with left | ⟨other, holds⟩
    · exact Or.inl left
    · have differs : other ≠ owner := by
        rintro rfl
        exact outside holds
      exact Or.inr ⟨other, by rw [Function.update_of_ne differs]; exact holds⟩
  · exact clean.trans held.clean

theorem give (held : Held table claims abandoned) {source target : Owner}
    (differs : source ≠ target) (nothing : claims target = []) :
    Held table (Function.update (Function.update claims target (claims source)) source [])
      abandoned := by
  have origin : forall {owner resource},
      resource ∈ Function.update (Function.update claims target (claims source)) source [] owner ->
        (owner = target ∧ resource ∈ claims source) ∨
          (owner ≠ source ∧ owner ≠ target ∧ resource ∈ claims owner) := by
    intro owner resource holds
    by_cases left : owner = source
    · subst left
      rw [Function.update_self] at holds
      cases holds
    · rw [Function.update_of_ne left] at holds
      by_cases right : owner = target
      · subst right
        rw [Function.update_self] at holds
        exact Or.inl ⟨rfl, holds⟩
      · rw [Function.update_of_ne right] at holds
        exact Or.inr ⟨left, right, holds⟩
  constructor
  · intro owner resource holds
    rcases origin holds with ⟨_, claimed⟩ | ⟨_, _, claimed⟩
    · exact held.backed source resource claimed
    · exact held.backed owner resource claimed
  · intro owner
    by_cases left : owner = source
    · subst left
      rw [Function.update_self]
      exact List.nodup_nil
    · rw [Function.update_of_ne left]
      by_cases right : owner = target
      · subst right
        rw [Function.update_self]
        exact held.single source
      · rw [Function.update_of_ne right]
        exact held.single owner
  · intro first second resource left right
    rcases origin left with ⟨rfl, claimed⟩ | ⟨away, _, claimed⟩ <;>
      rcases origin right with ⟨rfl, claimed'⟩ | ⟨away', _, claimed'⟩
    · rfl
    · exact absurd (held.apart second source resource claimed' claimed) away'
    · exact absurd (held.apart first source resource claimed claimed') away
    · exact held.apart first second resource claimed claimed'
  · intro resource member
    rcases held.lost resource member with ⟨opened, nobody⟩
    refine ⟨opened, fun owner holds => ?_⟩
    rcases origin holds with ⟨_, claimed⟩ | ⟨_, _, claimed⟩
    · exact nobody source claimed
    · exact nobody owner claimed
  · intro resource opened
    rcases held.covered resource opened with left | ⟨owner, holds⟩
    · exact Or.inl left
    · right
      by_cases left : owner = source
      · subst left
        refine ⟨target, ?_⟩
        rw [Function.update_of_ne differs.symm, Function.update_self]
        exact holds
      · have right : owner ≠ target := by
          rintro rfl
          rw [nothing] at holds
          cases holds
        refine ⟨owner, ?_⟩
        rw [Function.update_of_ne left, Function.update_of_ne right]
        exact holds
  · exact held.clean

end Held

end Foundations
end VortexEngine
