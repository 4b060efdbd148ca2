import Mathlib.Tactic.Tauto
import NotebookTree.Html.Dom

/-!
# Families of a tree under construction

A family is an element, or the contents of a template, with its children. Of the children only the
heads are seen: which of them are texts, and the numbers of those that are elements.
`Families holds` says that each family of a tree has a property, and the lemmas below say which
families change, and how, when a tree is changed at one place: the family at that place gains a head or loses one, and
the others keep their heads.
-/

namespace NotebookTree.Html.Dom

/-- What is seen of a node among its siblings. -/
inductive Head where
  | element (id : Nat)
  | text
  | comment
  | contents
  deriving DecidableEq

/-- Is it the head of a text? -/
def Head.isText : Head → Bool
  | text => true
  | _ => false

/-- What is seen of a node. -/
def head : Dom → Head
  | element id _ _ _ => .element id
  | text _ => .text
  | comment => .comment
  | contents _ _ => .contents

/-- What is seen of a list of siblings. -/
abbrev heads (nodes : List Dom) : List Head := nodes.map head

/-- Adds a head before the others of a list that has the newest first. Two texts become one. -/
def Head.push : Head → List Head → List Head
  | text, text :: older => text :: older
  | new, older => new :: older

theorem heads_push (node : Dom) (children : List Dom) :
    heads (push node children) = node.head.push (heads children) := by
  unfold Dom.push
  split
  · rfl
  · next hnot =>
    cases node with
    | text value =>
      cases children with
      | nil => rfl
      | cons first rest =>
        cases first with
        | text before => exact absurd rfl (hnot _ _ _ rfl)
        | element id name attributes inner => rfl
        | comment => rfl
        | contents id inner => rfl
    | element id name attributes inner => rfl
    | comment => rfl
    | contents id inner => rfl

/-- A family gains a head, as its newest or right before an element. -/
inductive Head.Gains (new : Head) : List Head → List Head → Prop where
  | newest (heads : List Head) : Gains new heads (new.push heads)
  | before (newer : List Head) (id : Nat) (older : List Head) :
      Gains new (newer ++ .element id :: older) (newer ++ .element id :: new.push older)

namespace Head

variable {new other : Head} {before after : List Head}

theorem mem_push : other ∈ new.push before ↔ other = new ∨ other ∈ before := by
  unfold Head.push
  split
  · simp
  · exact List.mem_cons

theorem Gains.mem_iff (h : new.Gains before after) :
    other ∈ after ↔ other = new ∨ other ∈ before := by
  cases h with
  | newest => exact mem_push
  | before newer id older =>
    simp only [List.mem_append, List.mem_cons, mem_push]
    tauto

end Head

/-! ## Families with a property -/

section Families

variable (holds : Nat → List Head → Prop)

mutual

/-- Each family of a tree has the property. -/
def Families : Dom → Prop
  | element id _ _ children => holds id (heads children) ∧ FamiliesIn children
  | text _ => True
  | comment => True
  | contents id children => holds id (heads children) ∧ FamiliesIn children

/-- Each family of the trees of a list has the property. -/
def FamiliesIn : List Dom → Prop
  | [] => True
  | node :: rest => node.Families ∧ FamiliesIn rest

end

end Families

variable {holds holds' : Nat → List Head → Prop}

theorem FamiliesIn.push {node : Dom} {children : List Dom} (h : FamiliesIn holds children)
    (hnode : node.Families holds) : FamiliesIn holds (push node children) := by
  unfold Dom.push
  split
  · exact ⟨trivial, h.2⟩
  · exact ⟨hnode, h⟩

mutual

theorem Families.mono (hmono : ∀ id heads, holds id heads → holds' id heads) :
    ∀ {tree : Dom}, tree.Families holds → tree.Families holds'
  | element _ _ _ _, h => ⟨hmono _ _ h.1, FamiliesIn.mono hmono h.2⟩
  | text _, _ => trivial
  | comment, _ => trivial
  | contents _ _, h => ⟨hmono _ _ h.1, FamiliesIn.mono hmono h.2⟩

theorem FamiliesIn.mono (hmono : ∀ id heads, holds id heads → holds' id heads) :
    ∀ {trees : List Dom}, FamiliesIn holds trees → FamiliesIn holds' trees
  | [], _ => trivial
  | _ :: _, h => ⟨h.1.mono hmono, FamiliesIn.mono hmono h.2⟩

end

/-! ### New children -/

theorem updateFirst?_cons_cases {id : Nat} {change : List Dom → List Dom} {node : Dom}
    {rest after : List Dom} (h : updateFirst? id change (node :: rest) = some after) :
    (∃ node', update? id change node = some node' ∧ after = node' :: rest) ∨
      ∃ rest', updateFirst? id change rest = some rest' ∧ after = node :: rest' := by
  unfold updateFirst? at h
  grind [Option.map_eq_some_iff]

section Update

variable {id : Nat} {change : List Dom → List Dom}

mutual

/-- One family has other children, and the rest is as before. -/
theorem Families.update? (hmono : ∀ id heads, holds id heads → holds' id heads)
    (hchange : ∀ children, holds id (heads children) → FamiliesIn holds children →
      holds' id (heads (change children)) ∧ FamiliesIn holds' (change children)) :
    ∀ {tree after : Dom}, tree.Families holds → Dom.update? id change tree = some after →
      after.Families holds' ∧ after.head = tree.head
  | element n name attributes children, _, h, hafter => by
    rw [Dom.update?] at hafter
    split at hafter
    · next heq =>
      cases hafter
      subst heq
      exact ⟨hchange children h.1 h.2, rfl⟩
    · obtain ⟨children', hchildren, rfl⟩ := Option.map_eq_some_iff.1 hafter
      obtain ⟨hbelow, hheads⟩ := FamiliesIn.updateFirst? hmono hchange h.2 hchildren
      exact ⟨⟨hmono _ _ (hheads ▸ h.1), hbelow⟩, rfl⟩
  | contents n children, _, h, hafter => by
    rw [Dom.update?] at hafter
    split at hafter
    · next heq =>
      cases hafter
      subst heq
      exact ⟨hchange children h.1 h.2, rfl⟩
    · obtain ⟨children', hchildren, rfl⟩ := Option.map_eq_some_iff.1 hafter
      obtain ⟨hbelow, hheads⟩ := FamiliesIn.updateFirst? hmono hchange h.2 hchildren
      exact ⟨⟨hmono _ _ (hheads ▸ h.1), hbelow⟩, rfl⟩
  | text _, _, _, hafter => by cases hafter
  | comment, _, _, hafter => by cases hafter

theorem FamiliesIn.updateFirst? (hmono : ∀ id heads, holds id heads → holds' id heads)
    (hchange : ∀ children, holds id (heads children) → FamiliesIn holds children →
      holds' id (heads (change children)) ∧ FamiliesIn holds' (change children)) :
    ∀ {children after : List Dom}, FamiliesIn holds children →
      Dom.updateFirst? id change children = some after →
        FamiliesIn holds' after ∧ heads after = heads children
  | [], _, _, hafter => by cases hafter
  | node :: rest, _, h, hafter => by
    rcases updateFirst?_cons_cases hafter with ⟨node', hnode, rfl⟩ | ⟨rest', hrest, rfl⟩
    · obtain ⟨hfamilies, hhead⟩ := Families.update? hmono hchange h.1 hnode
      exact ⟨⟨hfamilies, h.2.mono hmono⟩, congrArg (· :: heads rest) hhead⟩
    · obtain ⟨hfamilies, hheads⟩ := FamiliesIn.updateFirst? hmono hchange h.2 hrest
      exact ⟨⟨h.1.mono hmono, hfamilies⟩, congrArg (node.head :: ·) hheads⟩

end

end Update

/-- A family gains a node as its newest. -/
theorem Families.getD_update?_push {tree node : Dom} {id : Nat} (h : tree.Families holds)
    (hmono : ∀ id heads, holds id heads → holds' id heads) (hnode : node.Families holds')
    (hgain : ∀ heads heads', node.head.Gains heads heads' → holds id heads → holds' id heads') :
    ((tree.update? id (Dom.push node)).getD tree).Families holds' := by
  cases hafter : tree.update? id (Dom.push node) with
  | none => exact h.mono hmono
  | some after =>
    refine (Families.update? hmono (fun children hheads hchildren ↦ ?_) h hafter).1
    rw [heads_push]
    exact ⟨hgain _ _ (.newest _) hheads, (hchildren.mono hmono).push hnode⟩

/-! ### A node before an element -/

theorem insertBeforeFirst?_cons_cases {id : Nat} {new node : Dom} {rest after : List Dom}
    (h : insertBeforeFirst? id new (node :: rest) = some after) :
    (node.head = .element id ∧ after = node :: Dom.push new rest) ∨
      (∃ node', insertBefore? id new node = some node' ∧ after = node' :: rest) ∨
      ∃ rest', insertBeforeFirst? id new rest = some rest' ∧ after = node :: rest' := by
  unfold insertBeforeFirst? at h
  cases node with
  | element n name attributes children =>
    rw [head, Head.element.injEq]
    grind [Option.map_eq_some_iff]
  | _ => grind [Option.map_eq_some_iff]

section InsertBefore

variable {id : Nat} {new : Dom}

mutual

/-- The family of an element gains a node right before it. -/
theorem Families.insertBefore? (hmono : ∀ id heads, holds id heads → holds' id heads)
    (hnew : new.Families holds')
    (hgain : ∀ n heads heads', .element id ∈ heads → new.head.Gains heads heads' →
      holds n heads → holds' n heads') :
    ∀ {tree after : Dom}, tree.Families holds → Dom.insertBefore? id new tree = some after →
      after.Families holds' ∧ after.head = tree.head
  | element n name attributes children, _, h, hafter => by
    obtain ⟨children', hchildren, rfl⟩ := Option.map_eq_some_iff.1 hafter
    obtain ⟨hbelow, hheads⟩ := FamiliesIn.insertBeforeFirst? hmono hnew hgain h.2 hchildren
    exact ⟨⟨hheads n [] h.1, hbelow⟩, rfl⟩
  | contents n children, _, h, hafter => by
    obtain ⟨children', hchildren, rfl⟩ := Option.map_eq_some_iff.1 hafter
    obtain ⟨hbelow, hheads⟩ := FamiliesIn.insertBeforeFirst? hmono hnew hgain h.2 hchildren
    exact ⟨⟨hheads n [] h.1, hbelow⟩, rfl⟩
  | text _, _, _, hafter => by cases hafter
  | comment, _, _, hafter => by cases hafter

theorem FamiliesIn.insertBeforeFirst? (hmono : ∀ id heads, holds id heads → holds' id heads)
    (hnew : new.Families holds')
    (hgain : ∀ n heads heads', .element id ∈ heads → new.head.Gains heads heads' →
      holds n heads → holds' n heads') :
    ∀ {children after : List Dom}, FamiliesIn holds children →
      Dom.insertBeforeFirst? id new children = some after →
        FamiliesIn holds' after ∧ ∀ n newer, holds n (newer ++ heads children) →
          holds' n (newer ++ heads after)
  | [], _, _, hafter => by cases hafter
  | node :: rest, _, h, hafter => by
    rcases insertBeforeFirst?_cons_cases hafter with
      ⟨hhead, rfl⟩ | ⟨node', hnode, rfl⟩ | ⟨rest', hrest, rfl⟩
    · refine ⟨⟨h.1.mono hmono, (h.2.mono hmono).push hnew⟩, fun n newer hheads ↦ ?_⟩
      rw [heads, List.map_cons, hhead] at hheads ⊢
      rw [← heads, heads_push]
      exact hgain n _ _ (by simp) (.before newer id _) hheads
    · obtain ⟨hfamilies, hhead⟩ := Families.insertBefore? hmono hnew hgain h.1 hnode
      refine ⟨⟨hfamilies, h.2.mono hmono⟩, fun n newer hheads ↦ hmono _ _ ?_⟩
      rwa [heads, List.map_cons, hhead]
    · obtain ⟨hfamilies, hheads⟩ := FamiliesIn.insertBeforeFirst? hmono hnew hgain h.2 hrest
      refine ⟨⟨h.1.mono hmono, hfamilies⟩, fun n newer hbefore ↦ ?_⟩
      have happend := hheads n (newer ++ [node.head]) (by simpa using hbefore)
      simpa using happend

end

end InsertBefore

/-! ### An element less -/

theorem detachFirst?_cons_cases {id : Nat} {node found : Dom} {more rest : List Dom}
    (h : detachFirst? id (node :: more) = some (found, rest)) :
    (node.head = .element id ∧ found = node ∧ rest = more) ∨
      (∃ node', detach? id node = some (found, node') ∧ rest = node' :: more) ∨
      ∃ more', detachFirst? id more = some (found, more') ∧ rest = node :: more' := by
  unfold detachFirst? at h
  cases node with
  | element n name attributes children =>
    rw [head, Head.element.injEq]
    grind [Option.map_eq_some_iff]
  | _ => grind [Option.map_eq_some_iff]

section Detach

variable {id : Nat}

mutual

/-- The family of an element loses it. -/
theorem Families.detach?
    (hloss : ∀ n newer older, holds n (newer ++ .element id :: older) → holds n (newer ++ older)) :
    ∀ {tree found rest : Dom}, tree.Families holds → tree.detach? id = some (found, rest) →
      (found.Families holds ∧ found.head = .element id) ∧
        rest.Families holds ∧ rest.head = tree.head
  | element n name attributes children, _, _, h, hafter => by
    obtain ⟨⟨found, rest⟩, hchildren, heq⟩ := Option.map_eq_some_iff.1 hafter
    cases heq
    obtain ⟨hfound, hbelow, hheads⟩ := FamiliesIn.detachFirst? hloss h.2 hchildren
    exact ⟨hfound, ⟨hheads n [] h.1, hbelow⟩, rfl⟩
  | contents n children, _, _, h, hafter => by
    obtain ⟨⟨found, rest⟩, hchildren, heq⟩ := Option.map_eq_some_iff.1 hafter
    cases heq
    obtain ⟨hfound, hbelow, hheads⟩ := FamiliesIn.detachFirst? hloss h.2 hchildren
    exact ⟨hfound, ⟨hheads n [] h.1, hbelow⟩, rfl⟩
  | text _, _, _, _, hafter => by cases hafter
  | comment, _, _, _, hafter => by cases hafter

theorem FamiliesIn.detachFirst?
    (hloss : ∀ n newer older, holds n (newer ++ .element id :: older) → holds n (newer ++ older)) :
    ∀ {children : List Dom} {found : Dom} {rest : List Dom}, FamiliesIn holds children →
      Dom.detachFirst? id children = some (found, rest) →
        (found.Families holds ∧ found.head = .element id) ∧
          FamiliesIn holds rest ∧ ∀ n newer, holds n (newer ++ heads children) →
            holds n (newer ++ heads rest)
  | [], _, _, _, hafter => by cases hafter
  | node :: more, _, _, h, hafter => by
    rcases detachFirst?_cons_cases hafter with
      ⟨hhead, rfl, rfl⟩ | ⟨node', hnode, rfl⟩ | ⟨more', hmore, rfl⟩
    · refine ⟨⟨h.1, hhead⟩, h.2, fun n newer hheads ↦ hloss n newer _ ?_⟩
      rwa [← hhead]
    · obtain ⟨hfound, hrest, hhead⟩ := Families.detach? hloss h.1 hnode
      refine ⟨hfound, ⟨hrest, h.2⟩, fun n newer hheads ↦ ?_⟩
      rwa [heads, List.map_cons, hhead]
    · obtain ⟨hfound, hrest, hheads⟩ := FamiliesIn.detachFirst? hloss h.2 hmore
      refine ⟨hfound, ⟨h.1, hrest⟩, fun n newer hbefore ↦ ?_⟩
      have happend := hheads n (newer ++ [node.head]) (by simpa using hbefore)
      simpa using happend

end

end Detach

end NotebookTree.Html.Dom
