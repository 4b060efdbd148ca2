import NotebookTree.Html.Fragment
import NotebookTree.Proofs.Html.Reading

/-!
# Reading written tags back

`Node.openTag` and `Node.closeTag` write the tags of an element. Read as markup, each is one token
again, with the same name and the same attributes, provided that the names are spelled as names in
markup can be spelled.
-/

namespace NotebookTree

/-! ## Attributes in order -/

namespace Attributes

/-- An entry that comes after all others is added at their end. -/
theorem insertEntry_eq_append {name value : String} {entries : List (String × String)}
    (h : ∀ entry ∈ entries, entry.1 < name) :
    insertEntry name value entries = entries ++ [(name, value)] := by
  induction entries with
  | nil => rfl
  | cons entry rest ih =>
    obtain ⟨hentry, hrest⟩ := List.forall_mem_cons.1 h
    have hnot : ¬name < entry.1 := fun hlt ↦ String.lt_irrefl _ (String.lt_trans hlt hentry)
    rw [insertEntry, if_neg hnot, if_pos hentry, ih hrest, List.cons_append]

theorem entries_foldl_insert (attributes : Attributes) (entries : List (String × String))
    (h : (attributes.entries ++ entries).Pairwise (·.1 < ·.1)) :
    (entries.foldl (fun attributes entry ↦ attributes.insert entry.1 entry.2) attributes).entries =
      attributes.entries ++ entries := by
  induction entries generalizing attributes with
  | nil => simp
  | cons entry rest ih =>
    have hlast : ∀ other ∈ attributes.entries, other.1 < entry.1 := fun other hother ↦
      (List.pairwise_append.1 h).2.2 other hother entry List.mem_cons_self
    have hinsert : (attributes.insert entry.1 entry.2).entries = attributes.entries ++ [entry] :=
      insertEntry_eq_append hlast
    have hassoc : attributes.entries ++ [entry] ++ rest = attributes.entries ++ entry :: rest := by
      simp
    rw [List.foldl_cons, ih _ (by rwa [hinsert, hassoc]), hinsert, hassoc]

/-- Attributes are what their entries make. -/
theorem ofList_entries (attributes : Attributes) : ofList attributes.entries = attributes := by
  have hentries := entries_foldl_insert empty attributes.entries attributes.sorted
  rw [ofList]
  generalize attributes.entries.foldl _ empty = made at hentries
  obtain ⟨entries, sorted⟩ := made
  obtain rfl : entries = attributes.entries := hentries
  rfl

end Attributes

namespace Html

/-- The attributes of an HTML element are those of its tag. -/
theorem attributesOf_htmlAttributes (tag : Tag) :
    attributesOf (Builder.htmlAttributes tag) = Attributes.ofList tag.attributes := by
  have hunqualified : (Builder.htmlAttributes tag).filter (·.qualifier.isNone) =
      Builder.htmlAttributes tag := by
    rw [List.filter_eq_self]
    intro written hmem
    obtain ⟨entry, -, rfl⟩ := List.mem_map.1 hmem
    rfl
  have hqualified : (Builder.htmlAttributes tag).filter (·.qualifier.isSome) = [] := by
    rw [List.filter_eq_nil_iff]
    intro written hmem
    obtain ⟨entry, -, rfl⟩ := List.mem_map.1 hmem
    exact Bool.false_ne_true
  have hentries : (Builder.htmlAttributes tag).map (fun a ↦ (a.name, a.value)) =
      tag.attributes := by
    rw [Builder.htmlAttributes, List.map_map]
    exact List.map_id _
  simp only [attributesOf, hunqualified, hqualified, hentries, List.map_nil, List.append_nil]

namespace Token

/-! ## Values -/

theorem reference?_amp_inAttribute (rest : List Char) :
    reference? true ('a' :: 'm' :: 'p' :: ';' :: rest) = some (['&'], rest) := rfl

theorem reference?_quot_inAttribute (rest : List Char) :
    reference? true ('q' :: 'u' :: 'o' :: 't' :: ';' :: rest) = some (['"'], rest) := rfl

/-- An escaped character of a value is read back in one step. -/
theorem decode_escapedValueChar (c : Char) (fuel : Nat) (rest : List Char) :
    decode true (fuel + 1) (Node.escapedValueChar c ++ rest) = c :: decode true fuel rest := by
  unfold Node.escapedValueChar
  split
  · next hc =>
    simp only [List.cons_append, List.nil_append, decode, if_true, reference?_amp_inAttribute, hc]
  split
  · next hc =>
    simp only [List.cons_append, List.nil_append, decode, if_true, reference?_quot_inAttribute, hc]
  · next hamp _ => rw [List.singleton_append, decode, if_neg hamp]

theorem escapedValueChar_ne_nil (c : Char) : Node.escapedValueChar c ≠ [] := by
  unfold Node.escapedValueChar
  repeat' split
  all_goals simp

/-- An escaped value is read back. -/
theorem decode_flatMap_escapedValueChar (value : List Char) {fuel : Nat}
    (hfuel : (value.flatMap Node.escapedValueChar).length < fuel) :
    decode true fuel (value.flatMap Node.escapedValueChar) = value := by
  induction value generalizing fuel with
  | nil =>
    cases fuel with
    | zero => exact absurd hfuel (Nat.not_lt_zero _)
    | succ fuel => rfl
  | cons c rest ih =>
    rw [List.flatMap_cons, List.length_append] at hfuel
    have hpos := List.length_pos_iff.2 (escapedValueChar_ne_nil c)
    cases fuel with
    | zero => exact absurd hfuel (Nat.not_lt_zero _)
    | succ fuel => rw [List.flatMap_cons, decode_escapedValueChar, ih (by omega)]

/-- An escaped value holds the characters of the value but for quotation marks, and those of the
character references. -/
theorem of_mem_flatMap_escapedValueChar {value : List Char} {d : Char}
    (h : d ∈ value.flatMap Node.escapedValueChar) :
    (d ∈ value ∧ d ≠ '"') ∨ d ∈ ['&', 'a', 'm', 'p', 'q', 'u', 'o', 't', ';'] := by
  have hnames {name : List Char} (hname : name ⊆ ['&', 'a', 'm', 'p', 'q', 'u', 'o', 't', ';'])
      (hd : d ∈ name) : d ∈ ['&', 'a', 'm', 'p', 'q', 'u', 'o', 't', ';'] := hname hd
  obtain ⟨c, hc, hd⟩ := List.mem_flatMap.1 h
  unfold Node.escapedValueChar at hd
  split at hd
  · exact .inr (hnames (by decide) hd)
  split at hd
  · exact .inr (hnames (by decide) hd)
  · next hquote =>
    rw [List.mem_singleton.1 hd]
    exact .inl ⟨hc, hquote⟩

theorem quote_not_mem_flatMap_escapedValueChar (value : List Char) :
    '"' ∉ value.flatMap Node.escapedValueChar := by
  intro hmem
  rcases of_mem_flatMap_escapedValueChar hmem with ⟨-, hnot⟩ | hmem
  · exact hnot rfl
  · revert hmem
    decide

/-- A quoted value is read up to the next quotation mark. -/
theorem value?_quoted {value : List Char} (h : '"' ∉ value) (rest : List Char) :
    value? ('"' :: (value ++ '"' :: rest)) = some (value, rest) := by
  have hgoesOn : ∀ c ∈ value, (c != '"') = true := fun c hc ↦
    bne_iff_ne.2 fun heq ↦ h (heq ▸ hc)
  have hdrop : (value ++ '"' :: rest).dropWhile (· != '"') = '"' :: rest := by
    rw [List.dropWhile_append_of_pos hgoesOn]
    rfl
  have htake : (value ++ '"' :: rest).takeWhile (· != '"') = value := by
    rw [List.takeWhile_append_of_pos hgoesOn]
    exact List.append_nil _
  have hblank : ('"' :: (value ++ '"' :: rest)).dropWhile isTagBlank =
      '"' :: (value ++ '"' :: rest) := rfl
  rw [value?, hblank]
  dsimp only
  rw [if_pos (.inl rfl), hdrop, htake]

/-! ## Attributes -/

/-- Are the characters read as one attribute name? -/
def isAttributeName : List Char → Bool
  | [] => false
  | first :: rest => !endsName first && rest.all inName

/-- The attributes of a tag after one that is written has been read. -/
def addWritten (before : List (String × String)) (entry : String × String) :
    List (String × String) :=
  addAttribute before entry.1.toList (entry.2.toList.flatMap Node.escapedValueChar)

theorem attributes?_attributeChars {entry : String × String}
    (hname : isAttributeName entry.1.toList = true) (fuel : Nat) (before : List (String × String))
    (more : List Char) :
    attributes? (fuel + 1) before (Node.attributeChars entry ++ more) =
      attributes? fuel (addWritten before entry) more := by
  obtain ⟨name, value⟩ := entry
  cases hchars : name.toList with
  | nil => simp [isAttributeName, hchars] at hname
  | cons first rest =>
    simp only [hchars, isAttributeName, Bool.and_eq_true, Bool.not_eq_true', List.all_eq_true]
      at hname
    obtain ⟨hfirst, hrest⟩ := hname
    have hblank : isTagBlank first = false := by
      rw [endsName, Bool.or_eq_false_iff, Bool.or_eq_false_iff] at hfirst
      exact hfirst.1.1
    have hne {c : Char} (hc : endsName c = true) : first ≠ c := fun heq ↦
      Bool.false_ne_true (hfirst.symm.trans (heq ▸ hc))
    have hquote := quote_not_mem_flatMap_escapedValueChar value.toList
    have hwritten : Node.attributeChars (name, value) ++ more =
        ' ' :: first :: (rest ++ '=' :: '"' ::
          (value.toList.flatMap Node.escapedValueChar ++ '"' :: more)) := by
      simp [Node.attributeChars, hchars]
    generalize hafter : '=' :: '"' ::
      (value.toList.flatMap Node.escapedValueChar ++ '"' :: more) = after at hwritten
    have hdrop : (rest ++ after).dropWhile inName = after := by
      rw [List.dropWhile_append_of_pos hrest, ← hafter]
      rfl
    have htake : (rest ++ after).takeWhile inName = rest := by
      rw [List.takeWhile_append_of_pos hrest, ← hafter]
      exact List.append_nil _
    have hstart : (' ' :: first :: (rest ++ after)).dropWhile isTagBlank =
        first :: (rest ++ after) := by
      rw [List.dropWhile_cons_of_pos (by decide), List.dropWhile_cons_of_neg (by simp [hblank])]
    have hequals : ((rest ++ after).dropWhile inName).dropWhile isTagBlank =
        '=' :: '"' :: (value.toList.flatMap Node.escapedValueChar ++ '"' :: more) := by
      rw [hdrop, ← hafter]
      rfl
    rw [hwritten, attributes?_value hstart (hne (by decide)) (hne (by decide)) hequals, htake,
      value?_quoted hquote, Option.bind_some, addWritten, hchars]

/-- Written attributes are read one after the other. -/
theorem attributes?_flatMap_attributeChars {entries : List (String × String)}
    (hnames : ∀ entry ∈ entries, isAttributeName entry.1.toList = true) {fuel : Nat}
    (hfuel : entries.length < fuel) (before : List (String × String)) (rest : List Char) :
    attributes? fuel before (entries.flatMap Node.attributeChars ++ '>' :: rest) =
      some (entries.foldl addWritten before, false, rest) := by
  induction entries generalizing fuel before with
  | nil =>
    cases fuel with
    | zero => exact absurd hfuel (Nat.not_lt_zero _)
    | succ fuel => exact attributes?_greater rfl
  | cons entry others ih =>
    obtain ⟨hentry, hothers⟩ := List.forall_mem_cons.1 hnames
    cases fuel with
    | zero => exact absurd hfuel (Nat.not_lt_zero _)
    | succ fuel =>
      rw [List.flatMap_cons, List.append_assoc, attributes?_attributeChars hentry,
        ih hothers (Nat.lt_of_succ_lt_succ hfuel), List.foldl_cons]

/-- Is each character as a name in markup has it? -/
def isSettled (name : List Char) : Bool :=
  name.all fun c ↦ withoutNull (Text.lowerAscii c) == c

theorem map_eq_self_of_isSettled {name : List Char} (h : isSettled name = true) :
    name.map (fun c ↦ withoutNull (Text.lowerAscii c)) = name := by
  refine (List.map_congr_left fun c hc ↦ ?_).trans (List.map_id _)
  exact beq_iff_eq.1 (List.all_eq_true.1 h c hc)

theorem addWritten_eq_append {before : List (String × String)} {entry : String × String}
    (hname : isSettled entry.1.toList = true) (hvalue : '\x00' ∉ entry.2.toList)
    (hfresh : ∀ other ∈ before, other.1 ≠ entry.1) :
    addWritten before entry = before ++ [entry] := by
  have hsame : (entry.2.toList.map withoutNull) = entry.2.toList := by
    refine (List.map_congr_left fun c hc ↦ ?_).trans (List.map_id _)
    exact if_neg fun heq : c = '\x00' ↦ hvalue (heq ▸ hc)
  have hany : ¬before.any (·.1 == entry.1) = true := by
    rw [List.any_eq_true]
    rintro ⟨other, hother, heq⟩
    exact hfresh other hother (beq_iff_eq.1 heq)
  rw [addWritten, addAttribute, decoded,
    decode_flatMap_escapedValueChar _ (Nat.lt_succ_self _), hsame, map_eq_self_of_isSettled hname,
    String.ofList_toList, String.ofList_toList, if_neg hany]

/-- Attributes with different names are read back as they are. -/
theorem foldl_addWritten {entries : List (String × String)} (before : List (String × String))
    (hentries : ∀ entry ∈ entries, isSettled entry.1.toList = true ∧ '\x00' ∉ entry.2.toList)
    (hsorted : (before ++ entries).Pairwise (·.1 < ·.1)) :
    entries.foldl addWritten before = before ++ entries := by
  induction entries generalizing before with
  | nil => simp
  | cons entry rest ih =>
    obtain ⟨⟨hname, hvalue⟩, hrest⟩ := List.forall_mem_cons.1 hentries
    have hfresh : ∀ other ∈ before, other.1 ≠ entry.1 := by
      intro other hother heq
      have hlt := (List.pairwise_append.1 hsorted).2.2 other hother entry List.mem_cons_self
      rw [heq] at hlt
      exact String.lt_irrefl _ hlt
    have hassoc : before ++ [entry] ++ rest = before ++ entry :: rest := by simp
    rw [List.foldl_cons, addWritten_eq_append hname hvalue hfresh, ih _ hrest (by rwa [hassoc]),
      hassoc]

/-! ## Tags -/

/-- Are the characters read as one tag name? -/
def isTagName : List Char → Bool
  | [] => false
  | first :: rest => first.isAlpha && (first :: rest).all (!endsName ·)

theorem tag?_of_isTagName {name : List Char} (hname : isTagName name = true)
    (entries : List (String × String))
    (hnames : ∀ entry ∈ entries, isAttributeName entry.1.toList = true) (rest : List Char) :
    tag? (name ++ (entries.flatMap Node.attributeChars ++ '>' :: rest)) =
      some (⟨String.ofList (name.map fun c ↦ withoutNull (Text.lowerAscii c)),
        entries.foldl addWritten [], false⟩, rest) := by
  have hall : ∀ c ∈ name, (!endsName c) = true := by
    cases name with
    | nil => exact fun c hc ↦ absurd hc List.not_mem_nil
    | cons first tail =>
      rw [isTagName, Bool.and_eq_true] at hname
      exact List.all_eq_true.1 hname.2
  have hend : (entries.flatMap Node.attributeChars ++ '>' :: rest).takeWhile (!endsName ·) = [] ∧
      (entries.flatMap Node.attributeChars ++ '>' :: rest).dropWhile (!endsName ·) =
        entries.flatMap Node.attributeChars ++ '>' :: rest := by
    cases entries with
    | nil => exact ⟨rfl, rfl⟩
    | cons entry others => exact ⟨rfl, rfl⟩
  have hlength : entries.length ≤ (entries.flatMap Node.attributeChars).length := by
    clear hnames hend
    induction entries with
    | nil => exact Nat.zero_le _
    | cons entry others ih =>
      rw [List.flatMap_cons, List.length_append, List.length_cons]
      have hpos : 0 < (Node.attributeChars entry).length := Nat.succ_pos _
      omega
  have hfuel : entries.length <
      (name ++ (entries.flatMap Node.attributeChars ++ '>' :: rest)).length + 1 := by
    rw [List.length_append, List.length_append]
    omega
  rw [tag?, List.dropWhile_append_of_pos hall, List.takeWhile_append_of_pos hall, hend.1, hend.2,
    attributes?_flatMap_attributeChars hnames hfuel, List.append_nil]
  rfl

/-- The name that a tag is read with. -/
def spelled (name : String) : String :=
  String.ofList (name.toList.map fun c ↦ withoutNull (Text.lowerAscii c))

theorem spelled_eq_self {name : String} (h : isSettled name.toList = true) :
    spelled name = name := by
  rw [spelled, map_eq_self_of_isSettled h, String.ofList_toList]

/-- An opening tag is read as one token. -/
theorem written_openTag_spelled {name : String} (hname : isTagName name.toList = true)
    {attributes : Attributes}
    (hnames : ∀ entry ∈ attributes.entries, isAttributeName entry.1.toList = true) :
    Written (.startTag ⟨spelled name, attributes.entries.foldl addWritten [], false⟩)
      (Node.openTag name attributes) := by
  have htag := tag?_of_isTagName hname attributes.entries hnames []
  rw [Node.openTag, List.cons_append, List.cons_append, List.append_assoc]
  rw [spelled]
  cases hchars : name.toList with
  | nil => simp [isTagName, hchars] at hname
  | cons first tail =>
    rw [hchars] at hname htag
    rw [isTagName, Bool.and_eq_true] at hname
    exact .start hname.1 htag

/-- A closing tag is read as one token. -/
theorem written_closeTag_spelled {name : String} (hname : isTagName name.toList = true) :
    Written (.endTag (spelled name)) (Node.closeTag name) := by
  have htag := tag?_of_isTagName hname [] (by simp) []
  rw [Node.closeTag, List.cons_append, List.cons_append, spelled]
  cases hchars : name.toList with
  | nil => simp [isTagName, hchars] at hname
  | cons first tail =>
    rw [hchars] at hname htag
    rw [isTagName, Bool.and_eq_true] at hname
    exact .stop hname.1 htag

/-- A closing tag is read back. -/
theorem written_closeTag_of_isTagName {name : String} (hname : isTagName name.toList = true)
    (hsettled : isSettled name.toList = true) :
    Written (.endTag name) (Node.closeTag name) := by
  have hwritten := written_closeTag_spelled hname
  rwa [spelled_eq_self hsettled] at hwritten

/-- Can the attributes be read back? -/
def readsBack (attributes : Attributes) : Bool :=
  attributes.entries.all fun entry ↦ isAttributeName entry.1.toList && isSettled entry.1.toList &&
    !entry.2.toList.contains '\x00'

/-- An opening tag is read back with its attributes. -/
theorem written_openTag_of_isTagName {name : String} (hname : isTagName name.toList = true)
    (hsettled : isSettled name.toList = true) {attributes : Attributes}
    (hattributes : readsBack attributes = true) :
    Written (.startTag ⟨name, attributes.entries, false⟩) (Node.openTag name attributes) := by
  have hentries : ∀ entry ∈ attributes.entries, isAttributeName entry.1.toList = true ∧
      isSettled entry.1.toList = true ∧ '\x00' ∉ entry.2.toList := by
    intro entry hmem
    have hentry := List.all_eq_true.1 hattributes entry hmem
    simpa [and_assoc] using hentry
  have hwritten := written_openTag_spelled hname fun entry hmem ↦ (hentries entry hmem).1
  have hattributes' : attributes.entries.foldl addWritten [] = attributes.entries :=
    foldl_addWritten [] (fun entry hmem ↦ (hentries entry hmem).2) attributes.sorted
  rwa [spelled_eq_self hsettled, hattributes'] at hwritten

end Token

end Html

end NotebookTree
