import NotebookTree.Proofs.Html.Moves.Body
import NotebookTree.Proofs.Html.TextElement

/-!
# Other names for elements

The construction of a tree knows some names of elements and treats all others alike. A `Relabeling`
gives other names to elements of names that are not known, both where they are open and in the tree,
and may change attributes in the tree. `Relabeling.Follows` says of two builders that one is the
other with the other names. The operations of a builder keep that up, provided that the names of the
open elements can still be told apart as far as end tags are concerned.

This module has the operations that search the open elements, close them and insert nodes.
-/

namespace NotebookTree.Html

/-- May a name be known? No known name has a hyphen, but for one. -/
def isReserved (name : String) : Bool :=
  !name.toList.contains '-' || name == "annotation-xml"

theorem isReserved_formattingTags : ∀ tag ∈ formattingTags, isReserved tag = true := by decide

/-- The modes of selections and of groups of columns, in which tags may have no effect. -/
def narrowModes : List Mode := [.select, .selectInTable, .columnGroup]

/-- Other names for elements, and which elements may be read. -/
structure Relabeling where
  /-- The name of an open element. -/
  rename : String → String
  /-- The name of an element of the tree. -/
  title : String → String
  /-- The attributes of an element of the tree. -/
  attributes : List Attribute → List Attribute
  /-- The elements that may be open, by their names before that. -/
  Admits : ElementName → Prop
  /-- The elements of text alone that may be read. -/
  texts : List String
  /-- Are selections and groups of columns left out? -/
  narrowless : Bool
  rename_eq_iff : ∀ {name known : String}, isReserved known = true →
    (rename name = known ↔ name = known)
  title_eq_self : ∀ {known : String}, isReserved known = true → title known = known
  attributes_nil : attributes [] = []
  admits_impliedTag : ∀ tag ∈ ["p", "tbody", "tr"], Admits ⟨.html, tag⟩
  admits_select : Admits ⟨.html, "select"⟩ → narrowless = false
  admits_colgroup : Admits ⟨.html, "colgroup"⟩ ↔ narrowless = false

namespace Relabeling

variable (r : Relabeling)

/-- The name of an open element with its vocabulary. -/
def elementName (name : ElementName) : ElementName :=
  ⟨name.vocabulary, r.rename name.name⟩

/-- An open element. -/
def openElement (element : OpenElement) : OpenElement :=
  ⟨element.id, r.elementName element.name⟩

/-- A tag. -/
def tag (tag : Tag) : Tag :=
  { tag with name := r.rename tag.name }

/-- A token. -/
def token : Token → Token
  | .startTag tag => .startTag (r.tag tag)
  | .endTag name => .endTag (r.rename name)
  | other => other

/-- An opening tag may be read if its element has the same name wherever it is, an admitted one, and
keeps its attributes. -/
structure AcceptsTag (tag : Tag) : Prop where
  rename_tagName : ∀ vocabulary, r.rename (Foreign.tagName vocabulary tag.name) =
    Foreign.tagName vocabulary (r.rename tag.name)
  title_tagName : ∀ vocabulary, r.title (Foreign.tagName vocabulary tag.name) =
    r.rename (Foreign.tagName vocabulary tag.name)
  admits_tagName : ∀ vocabulary, r.Admits ⟨vocabulary, Foreign.tagName vocabulary tag.name⟩
  htmlAttributes_eq : r.attributes (Builder.htmlAttributes tag) = Builder.htmlAttributes tag
  foreignAttributes_eq : ∀ vocabulary,
    r.attributes (tag.attributes.map (Foreign.attributeOf vocabulary)) =
      tag.attributes.map (Foreign.attributeOf vocabulary)
  mem_texts : tag.name ∈ textTags → tag.name ∈ r.texts
  ne_col : r.narrowless = true → tag.name ≠ "col"

/-- An end tag may be read if it closes the same elements as before. -/
def AcceptsEnd (name : String) : Prop :=
  ∀ other, r.Admits other → (r.rename other.name = r.rename name ↔ other.name = name) ∧
    (Text.lowerAsciiString (r.rename other.name) = r.rename name ↔
      Text.lowerAsciiString other.name = name)

/-- May a token be read? -/
def Accepts : Token → Prop
  | .startTag tag => r.AcceptsTag tag
  | .endTag name => r.AcceptsEnd name
  | _ => True

/-- A formatting element keeps its name and its attributes. -/
def Keeps : FormattingEntry → Prop
  | .marker => True
  | .element _ tag => tag.name ∈ formattingTags ∧ r.AcceptsTag tag

variable {r}

theorem rename_eq_self {known : String} (h : isReserved known = true) : r.rename known = known :=
  (r.rename_eq_iff h).2 rfl

theorem rename_mem_iff {name : String} {known : List String}
    (h : ∀ tag ∈ known, isReserved tag = true) : r.rename name ∈ known ↔ name ∈ known := by
  constructor
  · intro hmem
    have hname : name = r.rename name := (r.rename_eq_iff (h _ hmem)).1 rfl
    rwa [hname]
  · intro hmem
    rw [rename_eq_self (h _ hmem)]
    exact hmem

theorem tag_eq_self {tag : Tag} (h : isReserved tag.name = true) : r.tag tag = tag := by
  rw [Relabeling.tag, rename_eq_self h]

end Relabeling

/-! ## Trees -/

namespace Dom

mutual

/-- A tree with other names. -/
def relabel (r : Relabeling) : Dom → Dom
  | element id name attributes children =>
    element id ⟨name.vocabulary, r.title name.name⟩ (r.attributes attributes)
      (relabelAll r children)
  | text value => text value
  | comment => comment
  | contents id children => contents id (relabelAll r children)

/-- Trees with other names. -/
def relabelAll (r : Relabeling) : List Dom → List Dom
  | [] => []
  | node :: rest => relabel r node :: relabelAll r rest

end

variable {r : Relabeling}

mutual

/-- The names in the tree and the attributes are all that changes. -/
theorem relabel_congr {r' : Relabeling} (htitle : r'.title = r.title)
    (hattributes : r'.attributes = r.attributes) : ∀ tree : Dom, relabel r' tree = relabel r tree
  | element id name attributes children => by
    rw [relabel, relabel, htitle, hattributes, relabelAll_congr htitle hattributes children]
  | contents id children => by
    rw [relabel, relabel, relabelAll_congr htitle hattributes children]
  | text value => rfl
  | comment => rfl

theorem relabelAll_congr {r' : Relabeling} (htitle : r'.title = r.title)
    (hattributes : r'.attributes = r.attributes) :
    ∀ trees : List Dom, relabelAll r' trees = relabelAll r trees
  | [] => rfl
  | node :: rest => by
    rw [relabelAll, relabelAll, relabel_congr htitle hattributes node,
      relabelAll_congr htitle hattributes rest]

end

theorem relabelAll_push (node : Dom) (children : List Dom) :
    relabelAll r (push node children) = push (relabel r node) (relabelAll r children) := by
  cases node with
  | text value =>
    cases children with
    | nil => rfl
    | cons child rest =>
      cases child <;> simp only [push, relabelAll, relabel]
  | _ => simp only [push, relabelAll, relabel]

mutual

theorem update?_relabel {id : Nat} {change change' : List Dom → List Dom}
    (hchange : ∀ children, change' (relabelAll r children) = relabelAll r (change children)) :
    ∀ tree : Dom, update? id change' (relabel r tree) = (update? id change tree).map (relabel r)
  | element n name attributes children => by
    rw [relabel, update?, update?, updateFirst?_relabelAll hchange children]
    split
    · rw [Option.map_some, relabel, hchange]
    · cases updateFirst? id change children <;>
        simp only [Option.map_none, Option.map_some, relabel]
  | contents n children => by
    rw [relabel, update?, update?, updateFirst?_relabelAll hchange children]
    split
    · rw [Option.map_some, relabel, hchange]
    · cases updateFirst? id change children <;>
        simp only [Option.map_none, Option.map_some, relabel]
  | text value => rfl
  | comment => rfl

/-- Changes of children that go along with other names do so in the whole tree. -/
theorem updateFirst?_relabelAll {id : Nat} {change change' : List Dom → List Dom}
    (hchange : ∀ children, change' (relabelAll r children) = relabelAll r (change children)) :
    ∀ trees : List Dom, updateFirst? id change' (relabelAll r trees) =
      (updateFirst? id change trees).map (relabelAll r)
  | [] => rfl
  | node :: rest => by
    rw [relabelAll, updateFirst?, updateFirst?, update?_relabel hchange node,
      updateFirst?_relabelAll hchange rest]
    cases update? id change node with
    | some node' => rfl
    | none => cases updateFirst? id change rest <;> rfl

end

mutual

theorem insertBefore?_relabel (id : Nat) (new : Dom) :
    ∀ tree : Dom, insertBefore? id (relabel r new) (relabel r tree) =
      (insertBefore? id new tree).map (relabel r)
  | element n name attributes children => by
    rw [relabel, insertBefore?, insertBefore?, insertBeforeFirst?_relabelAll id new children]
    cases insertBeforeFirst? id new children <;>
      simp only [Option.map_none, Option.map_some, relabel]
  | contents n children => by
    rw [relabel, insertBefore?, insertBefore?, insertBeforeFirst?_relabelAll id new children]
    cases insertBeforeFirst? id new children <;>
      simp only [Option.map_none, Option.map_some, relabel]
  | text value => rfl
  | comment => rfl

/-- A node is put before the same element. -/
theorem insertBeforeFirst?_relabelAll (id : Nat) (new : Dom) :
    ∀ trees : List Dom, insertBeforeFirst? id (relabel r new) (relabelAll r trees) =
      (insertBeforeFirst? id new trees).map (relabelAll r)
  | [] => rfl
  | node :: rest => by
    have hnode := insertBefore?_relabel id new node
    have hrest := insertBeforeFirst?_relabelAll id new rest
    have hbelow : (match insertBefore? id (relabel r new) (relabel r node) with
        | some node => some (node :: relabelAll r rest)
        | none => (insertBeforeFirst? id (relabel r new) (relabelAll r rest)).map
            (relabel r node :: ·)) =
        (match insertBefore? id new node with
          | some node => some (node :: rest)
          | none => (insertBeforeFirst? id new rest).map (node :: ·)).map (relabelAll r) := by
      rw [hnode, hrest]
      cases insertBefore? id new node with
      | some node' => rfl
      | none => cases insertBeforeFirst? id new rest <;> rfl
    cases node with
    | element n name attributes children =>
      rw [relabelAll, insertBeforeFirst?, relabel, insertBeforeFirst?]
      rw [relabel] at hbelow
      by_cases hn : (n == id) = true
      · simp only [hn, if_true, Option.map_some, relabelAll, relabel, relabelAll_push]
      · simp only [hn, if_false, Bool.false_eq_true]
        exact hbelow
    | text value => exact hbelow
    | comment => exact hbelow
    | contents n children => exact hbelow

end

mutual

theorem detach?_relabel (id : Nat) :
    ∀ tree : Dom, detach? id (relabel r tree) =
      (detach? id tree).map fun (found, rest) ↦ (relabel r found, relabel r rest)
  | element n name attributes children => by
    rw [relabel, detach?, detach?, detachFirst?_relabelAll id children]
    cases detachFirst? id children <;> simp only [Option.map_none, Option.map_some, relabel]
  | contents n children => by
    rw [relabel, detach?, detach?, detachFirst?_relabelAll id children]
    cases detachFirst? id children <;> simp only [Option.map_none, Option.map_some, relabel]
  | text value => rfl
  | comment => rfl

/-- The same element is taken out. -/
theorem detachFirst?_relabelAll (id : Nat) :
    ∀ trees : List Dom, detachFirst? id (relabelAll r trees) =
      (detachFirst? id trees).map fun (found, rest) ↦ (relabel r found, relabelAll r rest)
  | [] => rfl
  | node :: rest => by
    have hnode := detach?_relabel id node
    have hrest := detachFirst?_relabelAll id rest
    have hbelow : (match detach? id (relabel r node) with
        | some (found, node) => some (found, node :: relabelAll r rest)
        | none => (detachFirst? id (relabelAll r rest)).map fun (found, rest) ↦
            (found, relabel r node :: rest)) =
        (match detach? id node with
          | some (found, node) => some (found, node :: rest)
          | none => (detachFirst? id rest).map fun (found, rest) ↦ (found, node :: rest)).map
            fun (found, rest) ↦ (relabel r found, relabelAll r rest) := by
      rw [hnode, hrest]
      cases detach? id node with
      | some found => rfl
      | none => cases detachFirst? id rest <;> rfl
    cases node with
    | element n name attributes children =>
      rw [relabelAll, detachFirst?, relabel, detachFirst?]
      rw [relabel] at hbelow
      by_cases hn : (n == id) = true
      · simp only [hn, if_true, Option.map_some, relabel]
      · simp only [hn, if_false, Bool.false_eq_true]
        exact hbelow
    | text value => exact hbelow
    | comment => exact hbelow
    | contents n children => exact hbelow

end

end Dom

end NotebookTree.Html
