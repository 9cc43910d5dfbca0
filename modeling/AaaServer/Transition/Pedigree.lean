import AaaServer.Transition.Cycle

open Relation

namespace transition

variable {ι : Type} {entries entries' added : ι → Option ι → Prop} {fresh : ι → Prop} {a b c x root : ι}

/-- An entry that says that `b` has the parent `a`. -/
def ParentIn (entries : ι → Option ι → Prop) (a b : ι) : Prop := entries b (some a)

/-- Entries that give each id its parent, or none: no id has two, and no id is
    its own ancestor. -/
structure Pedigree (entries : ι → Option ι → Prop) : Prop where
  one : ∀ id pid pid', entries id pid → entries id pid' → pid = pid'
  acyclic : ∀ id, ¬ TransGen (ParentIn entries) id id

namespace Pedigree

theorem mono (hpedigree : Pedigree entries) (hsub : ∀ id pid, entries' id pid → entries id pid) :
    Pedigree entries' where
  one id pid pid' h h' := hpedigree.one id pid pid' (hsub id pid h) (hsub id pid' h')
  acyclic id hcycle := hpedigree.acyclic id (TransGen.mono (fun _ _ => hsub _ _) _ _ hcycle)

/-- Entries are added for fresh ids only, which no older entry mentions. -/
structure Extension (entries added : ι → Option ι → Prop) (fresh : ι → Prop) : Prop where
  added : ∀ id pid, added id pid → entries id pid ∨ fresh id
  unused : ∀ id pid, entries id pid → ¬ fresh id ∧ ∀ a ∈ pid, ¬ fresh a

theorem Extension.old {pid : Option ι} (hext : Extension entries added fresh)
    (h : entries a pid ∨ added a pid) (ha : ¬ fresh a) : entries a pid :=
  h.elim id fun hadded => (hext.added a pid hadded).resolve_right ha

/-- An ancestor of an id that is not fresh was its ancestor before. -/
theorem Extension.ancestor (hext : Extension entries added fresh) (hx : ¬ fresh x)
    (hpath : TransGen (ParentIn fun id pid => entries id pid ∨ added id pid) a x) :
    TransGen (ParentIn entries) a x ∧ ¬ fresh a := by
  have hedge {b c : ι} (hc : ¬ fresh c) (h : ParentIn (fun id pid => entries id pid ∨ added id pid) b c) :
      ParentIn entries b c ∧ ¬ fresh b := by
    have hold := hext.old h hc
    exact ⟨hold, (hext.unused c _ hold).2 b rfl⟩
  induction hpath with
  | single h =>
    obtain ⟨hold, ha⟩ := hedge hx h
    exact ⟨.single hold, ha⟩
  | tail _ h ih =>
    obtain ⟨hold, hb⟩ := hedge hx h
    obtain ⟨hpath, ha⟩ := ih hb
    exact ⟨hpath.tail hold, ha⟩

/-- The extended entries are a pedigree when the added ones are. -/
theorem extend (hpedigree : Pedigree entries) (hadded : Pedigree added) (hext : Extension entries added fresh) :
    Pedigree fun id pid => entries id pid ∨ added id pid where
  one id pid pid' h h' := by
    by_cases hid : fresh id
    · have hnew {pid : Option ι} (h : entries id pid ∨ added id pid) : added id pid :=
        h.resolve_left fun hold => (hext.unused id pid hold).1 hid
      exact hadded.one id pid pid' (hnew h) (hnew h')
    · exact hpedigree.one id pid pid' (hext.old h hid) (hext.old h' hid)
  acyclic id hcycle := by
    have hback : ∀ y z, ParentIn (fun id pid => entries id pid ∨ added id pid) y z → ¬ fresh z → ¬ fresh y :=
      fun y z h hz => (hext.ancestor hz (.single h)).2
    rcases cycle_split hback hcycle with hold | hnew
    · exact hpedigree.acyclic id (TransGen.mono (fun y z h => hext.old h.1 h.2.2) _ _ hold)
    · refine hadded.acyclic id (TransGen.mono (fun y z h => ?_) _ _ hnew)
      obtain ⟨h, _, hz⟩ := h
      exact h.resolve_left fun hold => (hext.unused z _ hold).1 (Classical.not_not.mp hz)

/-- A set that is closed under parents up to a root holds what is between the
    root and one of its members. -/
theorem between (hpedigree : Pedigree entries) {inside : ι → Prop}
    (hup : ∀ b, inside b → b = root ∨ ∃ a, inside a ∧ entries b (some a)) (hx : inside x)
    (hroot : ReflTransGen (ParentIn entries) root c) (hpath : ReflTransGen (ParentIn entries) c x) : inside c := by
  induction hpath with
  | refl => exact hx
  | @tail b x hpath hedge ih =>
    rcases hup x hx with rfl | ⟨a, ha, hentry⟩
    · exact absurd (TransGen.tail' (hroot.trans hpath) hedge) (hpedigree.acyclic _)
    · obtain rfl := Option.some.inj (hpedigree.one x _ _ hentry hedge)
      exact ih ha

end Pedigree

end transition
