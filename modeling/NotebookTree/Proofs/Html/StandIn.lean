import Mathlib.Data.List.Basic
import NotebookTree.Proofs.Html.Reading
import NotebookTree.Proofs.Html.Tags

/-!
# Stand-ins in a steady builder

A stand-in is written as an opening tag and an end tag, with its index in decimal digits. Read back,
it is an empty element that adds one mark, with the same index. Whether the element belongs to HTML
or to foreign content makes no difference to that.
-/

namespace NotebookTree

/-! ## Indices -/

theorem Text.digitValue?_eq_some {c : Char} (h : c.isDigit = true) :
    digitValue? 10 c = some (c.toNat - '0'.toNat) := by
  simp only [Char.isDigit, Bool.and_eq_true, decide_eq_true_eq] at h
  have hrange : '0' ≤ c ∧ c ≤ '9' := h
  have hle : c.toNat ≤ 57 := hrange.2
  have hlt : c.toNat - '0'.toNat < 10 := Nat.sub_lt_left_of_lt_add hrange.1 (Nat.lt_succ_of_le hle)
  rw [digitValue?, if_pos hrange, Option.filter_some, if_pos (decide_eq_true hlt)]

theorem Text.ofDigits_toDigits (n : Nat) : ofDigits 10 (Nat.toDigits 10 n) = n := by
  have hfold (digits : List Char) (hdigits : ∀ c ∈ digits, c.isDigit = true) (start : Nat) :
      digits.foldl (fun n c ↦ n * 10 + (digitValue? 10 c).getD 0) start =
        Nat.ofDigitChars 10 digits start := by
    induction digits generalizing start with
    | nil => rfl
    | cons c rest ih =>
      obtain ⟨hc, hrest⟩ := List.forall_mem_cons.1 hdigits
      rw [List.foldl_cons, digitValue?_eq_some hc, Option.getD_some, ih hrest,
        Nat.ofDigitChars_cons, Nat.mul_comm]
  rw [ofDigits, hfold _ fun c hc ↦ Nat.isDigit_of_mem_toDigits (by decide) (by decide) hc]
  exact Nat.ofDigitChars_ten_toDigits

theorem toList_toString (n : Nat) : (toString n).toList = Nat.toDigits 10 n := by
  rw [Nat.toString_eq_ofList_toDigits, String.toList_ofList]

/-- The index of a stand-in is read back. -/
theorem Draft.index?_toString (n : Nat) : index? (toString n) = some n := by
  have hdigits : ∀ c ∈ Nat.toDigits 10 n, c.isDigit = true := fun c hc ↦
    Nat.isDigit_of_mem_toDigits (by decide) (by decide) hc
  have hall : (Nat.toDigits 10 n).all Char.isDigit = true := List.all_eq_true.2 hdigits
  have hempty : (Nat.toDigits 10 n).isEmpty = false := by simp
  unfold index?
  dsimp only
  rw [toList_toString]
  split
  · next rest heq =>
    have hplus := hdigits '+' (heq ▸ List.mem_cons_self)
    cases hplus
  · simp [hall, hempty, Text.ofDigits_toDigits]

namespace Html

/-- The opening tag of a stand-in. -/
def standInOpening (index : Nat) : Tag :=
  ⟨standInTag, [(standInAttribute, toString index)], false⟩

theorem Foreign.attributeOf_standInAttribute (vocabulary : Vocabulary) (value : String) :
    attributeOf vocabulary (standInAttribute, value) = ⟨none, standInAttribute, value⟩ := by
  have hqualified : qualified.lookup standInAttribute = none := by decide
  have hname : attributeName vocabulary standInAttribute = standInAttribute := by
    cases vocabulary <;> decide +kernel
  rw [attributeOf, hqualified]
  dsimp only
  rw [hname]

theorem Foreign.tagName_standInTag (vocabulary : Vocabulary) :
    tagName vocabulary standInTag = standInTag := by
  cases vocabulary <;> decide +kernel

/-- Stand-ins are watched for, in HTML and in foreign content. -/
def Watch.forStandIns : Watch := ⟨true, true⟩

theorem Watch.isLeaf_iff {tag : String} : Watch.forStandIns.isLeaf tag ↔ tag = standInTag :=
  beq_iff_eq

/-- A stand-in has its index in its attribute. -/
theorem standInIndex?_standInTag (index : Nat) :
    Draft.standInIndex? standInTag (attributesOf [⟨none, standInAttribute, toString index⟩]) =
      some index := by
  have hvalue : (attributesOf [⟨none, standInAttribute, toString index⟩]).get? standInAttribute =
      some (toString index) := rfl
  rw [Draft.standInIndex?, if_pos (beq_self_eq_true standInTag), hvalue]
  exact Draft.index?_toString index

/-! ## The markup of a stand-in -/

namespace Token

theorem decode_eq_self {cs : List Char} (h : '&' ∉ cs) (inAttribute : Bool) (fuel : Nat) :
    decode inAttribute fuel cs = cs := by
  induction cs generalizing fuel with
  | nil => cases fuel <;> rfl
  | cons c rest ih =>
    rw [List.mem_cons, not_or] at h
    cases fuel with
    | zero => rfl
    | succ fuel => rw [decode, if_neg (Ne.symm h.1), ih h.2]

/-- The value of the attribute of a stand-in holds digits only. -/
theorem digits_ne {n : Nat} {c : Char} (h : c ∈ Nat.toDigits 10 n) {d : Char}
    (hd : d.isDigit = false) : c ≠ d := by
  rintro rfl
  have hdigit := Nat.isDigit_of_mem_toDigits (by decide) (by decide) h
  exact Bool.false_ne_true (hd.symm.trans hdigit)

theorem addAttribute_standIn (index : Nat) :
    addAttribute [] standInAttribute.toList (Nat.toDigits 10 index) =
      (standInOpening index).attributes := by
  have hamp : '&' ∉ Nat.toDigits 10 index := fun h ↦ digits_ne h (by decide) rfl
  have hnull : (Nat.toDigits 10 index).map withoutNull = Nat.toDigits 10 index := by
    refine (List.map_congr_left fun c hc ↦ ?_).trans (List.map_id _)
    exact if_neg (digits_ne hc (by decide))
  have hname : String.ofList (standInAttribute.toList.map fun c ↦ withoutNull (Text.lowerAscii c)) =
      standInAttribute := by decide
  rw [addAttribute, decoded, decode_eq_self hamp, hnull, hname, ← Nat.toString_eq_ofList_toDigits]
  rfl

theorem value?_standIn (index : Nat) :
    value? ('"' :: (Nat.toDigits 10 index ++ ['"', '>'])) =
      some (Nat.toDigits 10 index, ['>']) := by
  have hdigits : ∀ c ∈ Nat.toDigits 10 index, (c != '"') = true := fun c hc ↦ by
    simpa using digits_ne hc (by decide)
  have hdrop : (Nat.toDigits 10 index ++ ['"', '>']).dropWhile (· != '"') = ['"', '>'] :=
    List.dropWhile_append_of_pos hdigits
  have htake : (Nat.toDigits 10 index ++ ['"', '>']).takeWhile (· != '"') =
      Nat.toDigits 10 index := by
    rw [List.takeWhile_append_of_pos hdigits]
    exact List.append_nil _
  have hblank : ('"' :: (Nat.toDigits 10 index ++ ['"', '>'])).dropWhile isTagBlank =
      '"' :: (Nat.toDigits 10 index ++ ['"', '>']) := rfl
  rw [value?, hblank]
  dsimp only
  rw [if_pos (.inl rfl), hdrop, htake]

theorem openTag_standInTag (index : Nat) :
    Node.openTag standInTag (Attributes.ofList [(standInAttribute, toString index)]) =
      '<' :: 'n' :: 'b' :: 'c' :: '-' :: 's' :: 'l' :: 'o' :: 't' :: ' ' ::
        'd' :: 'a' :: 't' :: 'a' :: '-' :: 's' :: 'l' :: 'o' :: 't' :: '=' :: '"' ::
          (Nat.toDigits 10 index ++ ['"', '>']) := by
  have hvalue : (toString index).toList.flatMap Node.escapedValueChar = Nat.toDigits 10 index := by
    have hself : ∀ c ∈ Nat.toDigits 10 index, Node.escapedValueChar c = [c] := fun c hc ↦ by
      rw [Node.escapedValueChar, if_neg (digits_ne hc (by decide)),
        if_neg (digits_ne hc (by decide))]
    rw [toList_toString]
    exact (List.flatMap_congr hself).trans (List.flatMap_singleton' _)
  have htag : standInTag.toList = ['n', 'b', 'c', '-', 's', 'l', 'o', 't'] := by decide
  have hattribute : standInAttribute.toList =
      ['d', 'a', 't', 'a', '-', 's', 'l', 'o', 't'] := by decide
  show '<' :: standInTag.toList ++
    [(standInAttribute, toString index)].flatMap Node.attributeChars ++ ['>'] = _
  rw [List.flatMap_singleton, Node.attributeChars, hvalue, htag, hattribute]
  simp

theorem closeTag_standInTag : Node.closeTag standInTag =
    ['<', '/', 'n', 'b', 'c', '-', 's', 'l', 'o', 't', '>'] := by decide

/-- The opening tag of a stand-in is read back. -/
theorem written_openTag (index : Nat) : Written (.startTag (standInOpening index))
    (Node.openTag standInTag (Attributes.ofList [(standInAttribute, toString index)])) := by
  have hattributes (fuel : Nat) : attributes? (fuel + 2) []
      (' ' :: 'd' :: 'a' :: 't' :: 'a' :: '-' :: 's' :: 'l' :: 'o' :: 't' :: '=' :: '"' ::
        (Nat.toDigits 10 index ++ ['"', '>'])) =
          some ((standInOpening index).attributes, false, []) := by
    rw [attributes?_value rfl (by decide) (by decide) rfl, value?_standIn, Option.bind_some]
    exact (attributes?_greater rfl).trans
      (congrArg (fun attributes ↦ some (attributes, false, [])) (addAttribute_standIn index))
  have hdrop : ('n' :: 'b' :: 'c' :: '-' :: 's' :: 'l' :: 'o' :: 't' :: ' ' ::
      'd' :: 'a' :: 't' :: 'a' :: '-' :: 's' :: 'l' :: 'o' :: 't' :: '=' :: '"' ::
        (Nat.toDigits 10 index ++ ['"', '>'])).dropWhile (!endsName ·) =
      ' ' :: 'd' :: 'a' :: 't' :: 'a' :: '-' :: 's' :: 'l' :: 'o' :: 't' :: '=' :: '"' ::
        (Nat.toDigits 10 index ++ ['"', '>']) := rfl
  rw [openTag_standInTag]
  refine .start (by decide) ?_
  rw [tag?, hdrop, List.length_cons, List.length_cons, hattributes]
  rfl

/-- The end tag of a stand-in is read back. -/
theorem written_closeTag : Written (.endTag standInTag) (Node.closeTag standInTag) := by
  have htag : tag? ['n', 'b', 'c', '-', 's', 'l', 'o', 't', '>'] =
      some (⟨standInTag, [], false⟩, []) := rfl
  rw [closeTag_standInTag]
  exact .stop (by decide) htag

/-- A stand-in has no line ends. -/
theorem return_not_mem_standIn (index : Nat) : '\r' ∉ standIn index := by
  have hdigits : '\r' ∉ Nat.toDigits 10 index := fun h ↦ digits_ne h (by decide) rfl
  rw [standIn, openTag_standInTag, closeTag_standInTag]
  simp [hdigits]

end Token

namespace Builder

variable {ms : List Mark} {b : Builder}

theorem closeOrdinary_standInTag {below : List OpenElement} {id : Nat}
    (hstack : b.stack = ⟨id, ⟨.html, standInTag⟩⟩ :: below) :
    b.closeOrdinary standInTag = { b with stack := below } := by
  have hsearch : closeOrdinary.search standInTag b.stack = some below.length := by
    rw [hstack]
    rfl
  have hdrop : b.stack.dropWhile (fun element ↦
      element.isHtmlIn impliedTags && !element.isHtmlIn [standInTag]) = b.stack := by
    rw [hstack]
    rfl
  have himplied : b.closeImpliedExcept [standInTag] = b := by
    rw [closeImpliedExcept, popWhile, hdrop]
  rw [closeOrdinary, hsearch]
  dsimp only
  rw [himplied, hstack]
  simp

theorem foreignEnd_standInTag {below : List OpenElement} {id : Nat} {vocabulary : Vocabulary}
    (hstack : b.stack = ⟨id, ⟨vocabulary, standInTag⟩⟩ :: below) (hbelow : below ≠ []) :
    b.foreignEnd standInTag = .done { b with stack := below } := by
  have hsearch : foreignEnd.search standInTag b.stack true = some (some below) := by
    rw [hstack]
    cases below with
    | nil => exact absurd rfl hbelow
    | cons next rest =>
      have hlower : (Text.lowerAsciiString standInTag == standInTag) = true := by decide
      simp [foreignEnd.search, hlower]
  rw [foreignEnd, hsearch]

/-- The end tag of a stand-in closes it. -/
theorem accept_endTag_standInTag {below : List OpenElement} {id : Nat} {vocabulary : Vocabulary}
    (hmode : b.mode = .body) (hline : b.dropLineFeed = false)
    (hstack : b.stack = ⟨id, ⟨vocabulary, standInTag⟩⟩ :: below)
    (hbelow : vocabulary ≠ .html → below ≠ []) :
    b.accept (.endTag standInTag) = { b with stack := below } := by
  have hcurrent : b.current = ⟨id, ⟨vocabulary, standInTag⟩⟩ := by
    rw [current, hstack]
    rfl
  refine accept_eq hline (.endTag standInTag) nofun nofun ?_
  by_cases hvocabulary : vocabulary = .html
  · subst hvocabulary
    have hforeign : ¬b.isForeign (.endTag standInTag) = true := by
      simp [isForeign, hcurrent]
    have hend : b.bodyEnd standInTag = b.closeOrdinary standInTag := rfl
    rw [if_neg hforeign, inMode_eq hmode, inBody, hend, closeOrdinary_standInTag hstack]
  · have hforeign : b.isForeign (.endTag standInTag) = true := by
      simp [isForeign, hcurrent, hvocabulary]
    rw [if_pos hforeign]
    exact foreignEnd_standInTag hstack (hbelow hvocabulary)

namespace Steady

/-- A stand-in that is opened adds a mark, and leaves the spine as it is once it is closed. -/
theorem exists_insertElement_eq (h : b.Steady .forStandIns .body ms) (vocabulary : Vocabulary)
    (index : Nat) :
    ∃ tree, b.insertElement true ⟨vocabulary, standInTag⟩
        [⟨none, standInAttribute, toString index⟩] =
          { b with
            tree, nextId := b.nextId + 2
            stack := ⟨b.nextId, ⟨vocabulary, standInTag⟩⟩ :: b.stack } ∧
      Steady .forStandIns .body (ms ++ [.standIn (some index)])
        { b with tree, nextId := b.nextId + 2 } := by
  have hname : (⟨vocabulary, standInTag⟩ : ElementName) ≠ ⟨.html, "template"⟩ := fun heq ↦
    absurd (show standInTag = "template" from congrArg ElementName.name heq) (by decide)
  obtain ⟨before, tree, hinsert, hmarks, hspine, hkept, hopen⟩ := h.exists_insert_eq
    (.element b.nextId ⟨vocabulary, standInTag⟩ [⟨none, standInAttribute, toString index⟩] [])
  rw [Dom.marks, if_pos (Watch.isLeaf_iff.2 rfl), standInIndex?_standInTag] at hmarks
  rw [Dom.spine, if_pos (Watch.isLeaf_iff.2 rfl)] at hspine
  refine ⟨tree, ?_, ?_⟩
  · rw [Builder.insertElement, if_neg hname, hinsert]
    rfl
  · rw [← hmarks]
    refine h.graft hspine hkept (by simp) ?_ (by simp) (Nat.le_add_right _ 2) ?_ h.stack_isPlain
    · rw [List.append_nil]
      exact h.nodup_spine.sublist hkept.sublist
    · rwa [List.append_nil]

/-- The opening tag of a stand-in opens it, in HTML or in foreign content. -/
theorem exists_accept_startTag_eq (h : b.Steady .forStandIns .body ms) (index : Nat) :
    ∃ (b' : Builder) (vocabulary : Vocabulary), b'.Steady .forStandIns .body ms ∧
      (vocabulary ≠ .html → b'.stack ≠ []) ∧
      b.accept (.startTag (standInOpening index)) =
        b'.insertElement true ⟨vocabulary, standInTag⟩
          [⟨none, standInAttribute, toString index⟩] := by
  by_cases hforeign : b.isForeign (.startTag (standInOpening index)) = true
  · refine ⟨b, b.current.name.vocabulary, h, ?_, ?_⟩
    · intro hvocabulary hstack
      rw [current, hstack] at hvocabulary
      exact hvocabulary rfl
    · have hends : ¬Foreign.endsForeign (standInOpening index) = true := by
        simp [Foreign.endsForeign, standInOpening, Foreign.endingTags, standInTag]
      have hopen : b.openForeign b.current.name.vocabulary (standInOpening index) =
          b.insertElement true ⟨b.current.name.vocabulary, standInTag⟩
            [⟨none, standInAttribute, toString index⟩] := by
        simp only [Builder.openForeign, standInOpening, Foreign.tagName_standInTag, List.map_cons,
          List.map_nil, Foreign.attributeOf_standInAttribute, Bool.not_false]
      refine accept_startTag_eq h.dropLineFeed_eq (standInOpening index) ?_
      rw [if_pos hforeign, ← hopen]
      simp only [inForeign, if_neg hends]
  · refine ⟨b.reopenFormatting, .html, h.reopenFormatting, fun hne ↦ absurd rfl hne, ?_⟩
    refine accept_startTag_eq h.dropLineFeed_eq (standInOpening index) ?_
    rw [if_neg hforeign, inMode_eq h.mode_eq]
    rfl

/-- A stand-in adds its mark. What is inside it would be read as markup. -/
theorem accept_standIn (h : b.Steady .forStandIns .body ms) (index : Nat) :
    (b.accept (.startTag (standInOpening index))).reading = .markup ∧
    ((b.accept (.startTag (standInOpening index))).accept (.endTag standInTag)).Steady
      .forStandIns .body
      (ms ++ [.standIn (some index)]) := by
  obtain ⟨b', vocabulary, hsteady, hstack, hopen⟩ := h.exists_accept_startTag_eq index
  obtain ⟨tree, hinsert, hclosed⟩ := hsteady.exists_insertElement_eq vocabulary index
  have hend : ({ b' with
      tree, nextId := b'.nextId + 2
      stack := ⟨b'.nextId, ⟨vocabulary, standInTag⟩⟩ :: b'.stack } : Builder).accept
        (.endTag standInTag) = { b' with tree, nextId := b'.nextId + 2 } :=
    accept_endTag_standInTag hclosed.mode_eq hclosed.dropLineFeed_eq rfl hstack
  rw [hopen, hinsert, hend]
  exact ⟨hclosed.reading_eq, hclosed⟩

end Steady

end Builder

end Html

end NotebookTree
