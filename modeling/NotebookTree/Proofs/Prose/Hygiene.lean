import NotebookTree.Proofs.Html.Relabeling.Respelling
import NotebookTree.Proofs.Prose.Conservation

/-!
# Raw elements named like stand-ins

Raw markup may hold elements that are named like the stand-ins. `Draft.lowerAll_of_respelled` says
when that makes no difference: lowering gives what it gives if these elements have a fresh name, but
for the name. The pass that puts elements in place has to go past such elements: none of them may
carry the index of an element that is not yet in place. `areSpared` follows the pass to tell.

An element of raw markup that carries such an index is taken for the stand-in, and its contents are
lost: `Draft.not_lowerAll_of_respelled`.
-/

namespace NotebookTree

open Outcome
open Html (IsFresh Token slotName)
open Node (mapTags mapTagsAll)

namespace Draft

/-! ## Drafts with other names -/

mutual

/-- Two drafts that are the same but for the name of some elements of raw markup, which in the second
draft are named like the stand-ins. -/
inductive Respelled (new : String) : Bool → Draft → Draft → Prop where
  | text {narrow : Bool} (value : String) : Respelled new narrow (.text value) (.text value)
  | raw {narrow : Bool} {markup markup' : String} :
      Html.Respelled new narrow false markup.toList markup'.toList →
      Respelled new narrow (.raw markup) (.raw markup')
  | element {narrow narrow' : Bool} {tag : String} {attributes : Attributes}
      {children children' : List Draft} : tag ≠ new → RespelledAll new narrow' children children' →
      Respelled new narrow (.element tag attributes children) (.element tag attributes children')

/-- Siblings that are the same but for the name. Either foreign elements that hold HTML are left out
in the raw markup among them, or selections and groups of columns. -/
inductive RespelledAll (new : String) : Bool → List Draft → List Draft → Prop where
  | nil {narrow : Bool} : RespelledAll new narrow [] []
  | cons {narrow : Bool} {draft draft' : Draft} {rest rest' : List Draft} :
      Respelled new narrow draft draft' → RespelledAll new narrow rest rest' →
      RespelledAll new narrow (draft :: rest) (draft' :: rest')

end

variable {new : String} {narrow : Bool}

theorem Respelled.isRaw_eq {draft draft' : Draft} (h : Respelled new narrow draft draft') :
    draft'.isRaw = draft.isRaw := by
  cases h <;> rfl

theorem RespelledAll.any_isRaw_eq {drafts drafts' : List Draft}
    (h : RespelledAll new narrow drafts drafts') : drafts'.any isRaw = drafts.any isRaw := by
  induction drafts generalizing drafts' with
  | nil =>
    cases h
    rfl
  | cons draft rest ih =>
    cases h with
    | cons hdraft hrest => rw [List.any_cons, List.any_cons, hdraft.isRaw_eq, ih hrest]

/-- The fragments of such siblings are the same but for the name. -/
theorem RespelledAll.fragment {drafts drafts' : List Draft}
    (h : RespelledAll new narrow drafts drafts') (index : Nat) :
    Html.Respelled new narrow true (fragment index drafts) (fragment index drafts') := by
  induction drafts generalizing drafts' index with
  | nil =>
    cases h
    exact .nil
  | cons draft rest ih =>
    cases h with
    | cons hdraft hrest =>
      cases hdraft with
      | text value =>
        exact (ih hrest index).of_not_mem (Html.Token.less_not_mem_escapeText _)
      | raw hmarkup => exact hmarkup.append (ih hrest index)
      | element _ _ => exact .standIn index rfl (ih hrest (index + 1))

/-! ## Going past other elements -/

mutual

/-- Does the pass over a node take no element of the name for a stand-in, if that is named like
one? -/
def isSpared (new : String) (slots : List (Option Node)) : Node → Bool
  | .element tag attributes children =>
    match slot? tag attributes slots with
    | some _ => true
    | none =>
      (tag != new || (slot? standInTag attributes slots).isNone) && areSpared new slots children
  | .root children => areSpared new slots children
  | .text _ => true

/-- Does the pass over nodes take no element of the name for a stand-in? -/
def areSpared (new : String) (slots : List (Option Node)) : List Node → Bool
  | [] => true
  | node :: rest => isSpared new slots node && areSpared new (fill slots node).2 rest

end

theorem slot?_map (change : Node → Node) (tag : String) (attributes : Attributes)
    (slots : List (Option Node)) :
    slot? tag attributes (slots.map (Option.map change)) =
      (slot? tag attributes slots).map fun entry ↦ (entry.1, change entry.2) := by
  rw [slot?_eq_bind, slot?_eq_bind]
  cases standInIndex? tag attributes with
  | none => rfl
  | some index =>
    rw [Option.bind_some, Option.bind_some, List.getElem?_map]
    cases slots[index]? with
    | none => rfl
    | some slot => cases slot <;> rfl

theorem slot?_of_ne {tag : String} (h : tag ≠ standInTag) (attributes : Attributes)
    (slots : List (Option Node)) : slot? tag attributes slots = none := by
  rw [slot?_eq_bind, standInIndex?, if_neg (by simpa using h)]
  rfl

/-- An element that is spared is taken for a stand-in under neither name. -/
theorem slot?_slotName (hnew : IsFresh new) {tag : String} {attributes : Attributes}
    {slots : List (Option Node)} {children : List Node}
    (h : isSpared new slots (.element tag attributes children) = true) :
    slot? (slotName new tag) attributes slots = slot? tag attributes slots := by
  by_cases htag : tag = new
  · have hnone : slot? tag attributes slots = none :=
      slot?_of_ne (htag ▸ hnew.ne_standInTag) attributes slots
    rw [isSpared, hnone] at h
    have hspared : slot? standInTag attributes slots = none := by
      simp only [htag, bne_self_eq_false, Bool.false_or, Bool.and_eq_true,
        Option.isNone_iff_eq_none] at h
      exact h.1
    rw [slotName, if_pos htag, hspared, hnone]
  · rw [slotName, if_neg htag]

theorem areSpared_of_isSpared {tag : String} {attributes : Attributes}
    {slots : List (Option Node)} {children : List Node}
    (h : isSpared new slots (.element tag attributes children) = true)
    (hslot : slot? tag attributes slots = none) : areSpared new slots children = true := by
  rw [isSpared, hslot] at h
  exact (Bool.and_eq_true _ _ ▸ h).2

mutual

theorem fill_mapTags (hnew : IsFresh new) :
    ∀ (node : Node) (slots : List (Option Node)), isSpared new slots node = true →
      fill (slots.map (Option.map (mapTags (slotName new)))) (mapTags (slotName new) node) =
        (mapTags (slotName new) (fill slots node).1,
          (fill slots node).2.map (Option.map (mapTags (slotName new))))
  | .text value, _, _ => rfl
  | .root children, slots, h => by
    have hchildren := fillAll_mapTagsAll hnew children slots h
    simp only [mapTags, fill, hchildren]
  | .element tag attributes children, slots, h => by
    have hslots := slot?_map (mapTags (slotName new)) (slotName new tag) attributes slots
    rw [slot?_slotName hnew h] at hslots
    cases hslot : slot? tag attributes slots with
    | some found =>
      rw [hslot, Option.map_some] at hslots
      simp only [mapTags, fill, hslot, hslots, List.map_set, Option.map_none]
    | none =>
      rw [hslot, Option.map_none] at hslots
      have hchildren := fillAll_mapTagsAll hnew children slots (areSpared_of_isSpared h hslot)
      simp only [mapTags, fill, hslot, hslots, hchildren]

/-- The pass puts the same elements in the same places, whatever the name of the elements that it
goes past. -/
theorem fillAll_mapTagsAll (hnew : IsFresh new) :
    ∀ (nodes : List Node) (slots : List (Option Node)), areSpared new slots nodes = true →
      fillAll (slots.map (Option.map (mapTags (slotName new)))) (mapTagsAll (slotName new) nodes) =
        (mapTagsAll (slotName new) (fillAll slots nodes).1,
          (fillAll slots nodes).2.map (Option.map (mapTags (slotName new))))
  | [], _, _ => rfl
  | node :: rest, slots, h => by
    rw [areSpared, Bool.and_eq_true] at h
    have hnode := fill_mapTags hnew node slots h.1
    have hrest := fillAll_mapTagsAll hnew rest (fill slots node).2 h.2
    simp only [mapTagsAll, fillAll, hnode, hrest]

end

/-! ## Lowering -/

/-- At a list of siblings, does the pass go past all elements of the name? -/
def isSparedHere (new : String) (limit : Nat) (drafts : List Draft) : Bool :=
  !drafts.any isRaw ||
    match lowerEach limit drafts, Html.compileFragment limit (String.ofList (fragment 0 drafts)) with
    | .ok lowered, .ok parsed => areSpared new ((pieces drafts lowered).map some) parsed
    | _, _ => true

mutual

/-- Does the pass go past all elements of the name at every list of siblings below a draft? -/
def isSparedBelow (new : String) (limit : Nat) : Draft → Bool
  | element _ _ children =>
    isSparedHere new limit children && areSparedBelow new limit children
  | _ => true

/-- Does the pass go past all elements of the name at every list of siblings below drafts? -/
def areSparedBelow (new : String) (limit : Nat) : List Draft → Bool
  | [] => true
  | draft :: rest => isSparedBelow new limit draft && areSparedBelow new limit rest

end

/-- Siblings that are lowered one by one are the same but for the name. Raw markup counts only as
long as it is not resolved. -/
inductive Alike (new : String) (drafts drafts' : List Draft) :
    Except CompileError (List Node) → Except CompileError (List Node) → Prop where
  | error (error : CompileError) : Alike new drafts drafts' (.error error) (.error error)
  | ok {lowered lowered' : List Node} :
      pieces drafts' lowered' = mapTagsAll (slotName new) (pieces drafts lowered) →
      (drafts.any isRaw = false → lowered' = mapTagsAll (slotName new) lowered) →
      Alike new drafts drafts' (.ok lowered) (.ok lowered')

theorem lower_element (limit : Nat) (tag : String) (attributes : Attributes)
    (children : List Draft) :
    lower limit (.element tag attributes children) =
      (lowerAll limit children).map (.element tag attributes) := by
  rw [lower, lowerAll]
  cases lowerEach limit children with
  | error error => rfl
  | ok lowered =>
    show (settle limit children lowered >>= fun nodes ↦ pure (Node.element tag attributes nodes)) =
      (settle limit children lowered).map (Node.element tag attributes)
    cases settle limit children lowered <;> rfl

theorem mapTagsAll_eq_map (change : String → String) (nodes : List Node) :
    mapTagsAll change nodes = nodes.map (mapTags change) := by
  induction nodes with
  | nil => rfl
  | cons node rest ih => rw [mapTagsAll, List.map_cons, ih]

/-- What becomes of the nodes and the table after the pass. -/
def outcome (filled : List Node × List (Option Node)) : Except CompileError (List Node) :=
  match filled.2.findIdx? Option.isSome with
  | some index => .error (.html ("raw HTML dropped markdown element " ++ toString index))
  | none => .ok filled.1

theorem outcome_map (change : List Node → List Node) (change' : Node → Node) (nodes : List Node)
    (slots : List (Option Node)) :
    outcome (change nodes, slots.map (Option.map change')) =
      (outcome (nodes, slots)).map change := by
  have hleft : (slots.map (Option.map change')).findIdx? Option.isSome =
      slots.findIdx? Option.isSome := by
    rw [List.findIdx?_map]
    exact congrArg (slots.findIdx? ·) (funext fun slot ↦ Option.isSome_map)
  rw [outcome, outcome, hleft]
  cases slots.findIdx? Option.isSome <;> rfl

theorem settle_of_any_isRaw (limit : Nat) {drafts : List Draft} (hraw : drafts.any isRaw = true)
    (lowered : List Node) :
    settle limit drafts lowered =
      (Html.compileFragment limit (String.ofList (fragment 0 drafts))).bind fun nodes ↦
        outcome (fillAll ((pieces drafts lowered).map some) nodes) := by
  rw [settle, if_neg (by simp [hraw]), pieces, List.map_map]
  rfl

theorem lowerEach_cons (limit : Nat) (draft : Draft) (rest : List Draft) :
    lowerEach limit (draft :: rest) =
      (lower limit draft).bind fun node ↦ (lowerEach limit rest).map (node :: ·) := by
  rw [lowerEach]
  cases lower limit draft with
  | error error => rfl
  | ok node => cases lowerEach limit rest <;> rfl

theorem Respelled.isElement_eq {draft draft' : Draft}
    (h : Respelled new narrow draft draft') : draft'.isElement = draft.isElement := by
  cases h <;> rfl

theorem pieces_cons (draft : Draft) (rest : List Draft) (node : Node) (lowered : List Node) :
    pieces (draft :: rest) (node :: lowered) =
      if draft.isElement then node :: pieces rest lowered else pieces rest lowered := by
  cases draft <;> rfl

theorem Alike.cons {draft draft' : Draft} {rest rest' : List Draft} {node node' : Node}
    {lowered lowered' : Except CompileError (List Node)}
    (h : Alike new rest rest' lowered lowered') (helement : draft'.isElement = draft.isElement)
    (hnode : draft.isRaw = false → node' = mapTags (slotName new) node) :
    Alike new (draft :: rest) (draft' :: rest') (lowered.map (node :: ·))
      (lowered'.map (node' :: ·)) := by
  cases h with
  | error error => exact .error error
  | @ok lowered lowered' hpieces hplain =>
    refine .ok ?_ fun hraw ↦ ?_
    · rw [pieces_cons, pieces_cons, helement, hpieces]
      cases draft with
      | element tag attributes children => exact congrArg (· :: _) (hnode rfl)
      | text value => rfl
      | raw markup => rfl
    · rw [List.any_cons, Bool.or_eq_false_iff] at hraw
      rw [mapTagsAll, hnode hraw.1, hplain hraw.2]

/-- One list of siblings is resolved alike. -/
theorem lowerAll_of_alike (hnew : IsFresh new) {drafts drafts' : List Draft}
    (h : RespelledAll new narrow drafts drafts') {limit : Nat}
    (hspared : isSparedHere new limit drafts = true)
    (halike : Alike new drafts drafts' (lowerEach limit drafts) (lowerEach limit drafts')) :
    lowerAll limit drafts' = (lowerAll limit drafts).map (mapTagsAll (slotName new)) := by
  have hany := h.any_isRaw_eq
  rw [lowerAll, lowerAll]
  generalize hlowered : lowerEach limit drafts = lowered at halike
  generalize lowerEach limit drafts' = lowered' at halike
  cases halike with
  | error error => rfl
  | @ok lowered lowered' hpieces hplain =>
    show settle limit drafts' lowered' = (settle limit drafts lowered).map _
    cases hraw : drafts.any isRaw with
    | false =>
      rw [settle, settle, if_pos (by simp [hany, hraw]), if_pos (by simp [hraw]), hplain hraw]
      rfl
    | true =>
      rw [settle_of_any_isRaw limit hraw, settle_of_any_isRaw limit (hany.trans hraw),
        Html.compileFragment_of_respelled hnew (h.fragment 0)]
      rw [isSparedHere, hraw, hlowered] at hspared
      cases hparsed : Html.compileFragment limit (String.ofList (fragment 0 drafts)) with
      | error error => rfl
      | ok parsed =>
        rw [hparsed] at hspared
        have hfill := fillAll_mapTagsAll hnew parsed ((pieces drafts lowered).map some) hspared
        have hslots : (pieces drafts' lowered').map some =
            ((pieces drafts lowered).map some).map (Option.map (mapTags (slotName new))) := by
          rw [hpieces, mapTagsAll_eq_map, List.map_map, List.map_map]
          rfl
        show outcome (fillAll ((pieces drafts' lowered').map some)
            (mapTagsAll (slotName new) parsed)) =
          (outcome (fillAll ((pieces drafts lowered).map some) parsed)).map
            (mapTagsAll (slotName new))
        rw [hslots, hfill, outcome_map]

mutual

theorem Respelled.lower_eq (hnew : IsFresh new) {narrow : Bool} {limit : Nat}
    {draft draft' : Draft} : Respelled new narrow draft draft' → draft.isRaw = false →
      isSparedBelow new limit draft = true →
        lower limit draft' = (lower limit draft).map (mapTags (slotName new))
  | .text value, _, _ => rfl
  | .element htag hchildren, _, hspared => by
    rw [isSparedBelow, Bool.and_eq_true] at hspared
    have halike := RespelledAll.alike hnew hchildren hspared.2
    rw [lower_element, lower_element, lowerAll_of_alike hnew hchildren hspared.1 halike]
    cases lowerAll limit _ with
    | error error => rfl
    | ok nodes =>
      show Except.ok _ = Except.ok _
      rw [mapTags, slotName, if_neg htag]

theorem RespelledAll.alike (hnew : IsFresh new) {narrow : Bool} {limit : Nat}
    {drafts drafts' : List Draft} : RespelledAll new narrow drafts drafts' →
      areSparedBelow new limit drafts = true →
        Alike new drafts drafts' (lowerEach limit drafts) (lowerEach limit drafts')
  | .nil, _ => .ok rfl fun _ ↦ rfl
  | @RespelledAll.cons _ _ draft _ _ _ hdraft hrest, hspared => by
    rw [areSparedBelow, Bool.and_eq_true] at hspared
    have hmore := RespelledAll.alike hnew hrest hspared.2
    rw [lowerEach_cons, lowerEach_cons]
    cases hraw : draft.isRaw with
    | true =>
      cases hdraft with
      | raw _ => exact hmore.cons rfl nofun
      | text value => cases hraw
      | element _ _ => cases hraw
    | false =>
      rw [Respelled.lower_eq hnew hdraft hraw hspared.1]
      cases lower limit draft with
      | error error => exact .error error
      | ok node => exact hmore.cons hdraft.isElement_eq fun _ ↦ rfl

end

/-- Lowering gives the same outcome as for siblings in whose raw markup the elements that are named
like stand-ins have a fresh name, but for that name, if none of them is taken for a stand-in. -/
theorem lowerAll_of_respelled (hnew : IsFresh new) {limit : Nat} {drafts drafts' : List Draft}
    (h : RespelledAll new narrow drafts drafts') (hhere : isSparedHere new limit drafts = true)
    (hbelow : areSparedBelow new limit drafts = true) :
    lowerAll limit drafts' = (lowerAll limit drafts).map (mapTagsAll (slotName new)) :=
  lowerAll_of_alike hnew h hhere (h.alike hnew hbelow)

/-- Emphasis between two raw elements of a name: one has the index of no element, and the other the
index of the element before it. -/
def lookAlikes (name : String) : List Draft :=
  [.raw ("<" ++ name ++ " data-slot=\"1\">a</" ++ name ++ ">"), .ofTag "em" [.text "b"],
    .raw ("<" ++ name ++ " data-slot=\"0\">c</" ++ name ++ ">")]

/-- An element with a character in it, under either name. -/
theorem respelled_lookAlike (index opening opening' : String) (value : Char)
    (hvalue : value ≠ '<')
    (hopening : Token.readMarkup false (Html.normalizeLineEnds opening.toList) =
      ([.startTag ⟨"x-slot", [(standInAttribute, index)], false⟩], []))
    (hopening' : Token.readMarkup false (Html.normalizeLineEnds opening'.toList) =
      ([.startTag ⟨standInTag, [(standInAttribute, index)], false⟩], [])) :
    Html.Respelled "x-slot" false false (opening.toList ++ value :: "</x-slot>".toList)
      (opening'.toList ++ value :: "</nbc-slot>".toList) := by
  have hclosing : Token.readMarkup false (Html.normalizeLineEnds "</x-slot>".toList) =
      ([.endTag "x-slot"], []) := rfl
  have hclosing' : Token.readMarkup false (Html.normalizeLineEnds "</nbc-slot>".toList) =
      ([.endTag standInTag], []) := rfl
  have hend : Html.Respelled "x-slot" false false ("</x-slot>".toList ++ [])
      ("</nbc-slot>".toList ++ []) :=
    .closing (.of_readMarkup_eq rfl hclosing) (.of_readMarkup_eq rfl hclosing') .nil
  rw [List.append_nil, List.append_nil] at hend
  exact .opening rfl (.of_readMarkup_eq rfl hopening) (.of_readMarkup_eq rfl hopening')
    (.character hvalue hend)

theorem respelled_emphasis :
    Respelled "x-slot" false (.ofTag "em" [.text "b"]) (.ofTag "em" [.text "b"]) :=
  .element (by decide) (show RespelledAll "x-slot" false [.text "b"] [.text "b"] from
    .cons (.text "b") .nil)

theorem isFresh_xSlot : IsFresh "x-slot" where
  not_reserved := by decide
  ne_standInTag := by decide
  lower_eq := by decide

theorem lowerAll_of_respelled_lookAlikes :
    IsFresh "x-slot" ∧
      RespelledAll "x-slot" false (lookAlikes "x-slot") (lookAlikes standInTag) ∧
      isSparedHere "x-slot" 16 (lookAlikes "x-slot") = true ∧
      areSparedBelow "x-slot" 16 (lookAlikes "x-slot") = true ∧
      lowerAll 16 (lookAlikes standInTag) =
        (lowerAll 16 (lookAlikes "x-slot")).map (mapTagsAll (slotName "x-slot")) := by
  have hall : RespelledAll "x-slot" false (lookAlikes "x-slot") (lookAlikes standInTag) := by
    refine .cons (.raw ?_) (.cons respelled_emphasis (.cons (.raw ?_) .nil))
    · exact respelled_lookAlike "1" "<x-slot data-slot=\"1\">" "<nbc-slot data-slot=\"1\">" 'a'
        (by decide) rfl rfl
    · exact respelled_lookAlike "0" "<x-slot data-slot=\"0\">" "<nbc-slot data-slot=\"0\">" 'c'
        (by decide) rfl rfl
  have hhere : isSparedHere "x-slot" 16 (lookAlikes "x-slot") = true := by decide +kernel
  have hbelow : areSparedBelow "x-slot" 16 (lookAlikes "x-slot") = true := by decide +kernel
  exact ⟨isFresh_xSlot, hall, hhere, hbelow,
    lowerAll_of_respelled isFresh_xSlot hall hhere hbelow⟩

/-- Emphasis after a raw element of a name that has the index of the emphasis. -/
def lookAlikeBefore (name : String) : List Draft :=
  [.raw ("<" ++ name ++ " data-slot=\"0\">a</" ++ name ++ ">"), .text " ",
    .ofTag "em" [.text "b"]]

theorem respelledAll_lookAlikeBefore :
    RespelledAll "x-slot" false (lookAlikeBefore "x-slot") (lookAlikeBefore standInTag) := by
  refine .cons (.raw ?_) (.cons (.text " ") (.cons respelled_emphasis .nil))
  exact respelled_lookAlike "0" "<x-slot data-slot=\"0\">" "<nbc-slot data-slot=\"0\">" 'a'
    (by decide) rfl rfl

/-- The emphasis takes the place of an element that has its index, whose text is lost. -/
theorem not_lowerAll_of_respelled :
    ¬∀ (new : String) (narrow : Bool) (limit : Nat) (drafts drafts' : List Draft), IsFresh new →
      RespelledAll new narrow drafts drafts' →
        lowerAll limit drafts' = (lowerAll limit drafts).map (mapTagsAll (slotName new)) := by
  intro hall
  have heq := hall "x-slot" false 16 _ _ isFresh_xSlot respelledAll_lookAlikeBefore
  have htext := congrArg (fun outcome ↦ (outcome.map Node.textContents).toOption) heq
  have hlost : ((lowerAll 16 (lookAlikeBefore standInTag)).map Node.textContents).toOption =
      some "b " := by decide +kernel
  have hkept : (((lowerAll 16 (lookAlikeBefore "x-slot")).map
      (mapTagsAll (slotName "x-slot"))).map Node.textContents).toOption = some "a b" := by
    decide +kernel
  rw [hlost, hkept] at htext
  exact absurd htext (by decide)

end Draft

end NotebookTree
