import Mathlib.Data.Set.Function
import NotebookTree.Proofs.Html.RoundTrip

/-!
# Markup is unambiguous

Two lists of nodes with the same markup are the same, provided that tags are names, void elements
are empty and texts neither are empty nor stand side by side: `Node.injOn_renderHtml`. Each part of
the markup tells where it ends: a text at the next less-than sign, a value at the next quotation
mark, and the children of an element at the first closing tag that is not one of theirs. So each
part can be taken off the front of two equal markups, whatever comes behind it.
-/

namespace NotebookTree

/-! ## Parts that tell where they end -/

/-- A part that goes on as long as the characters are of some kind is determined by the text that
it stands before. -/
theorem append_inj_of_all {p : Char → Bool} {first second rest rest' : List Char}
    (hfirst : first.all p = true) (hsecond : second.all p = true)
    (hrest : rest.head?.any p = false) (hrest' : rest'.head?.any p = false)
    (h : first ++ rest = second ++ rest') : first = second ∧ rest = rest' := by
  have hpart {part behind : List Char} (hpart : part.all p = true)
      (hbehind : behind.head?.any p = false) : (part ++ behind).takeWhile p = part := by
    rw [List.takeWhile_append_of_pos (List.all_eq_true.1 hpart)]
    cases behind with
    | nil => exact List.append_nil part
    | cons c others =>
      have hc : ¬p c = true := ne_true_of_eq_false hbehind
      rw [List.takeWhile_cons_of_neg hc, List.append_nil]
  have hsame : first = second := by rw [← hpart hfirst hrest, h, hpart hsecond hrest']
  subst hsame
  exact ⟨rfl, List.append_cancel_left h⟩

/-- A part without a sign that stands behind it is determined in the same way. -/
theorem append_cons_inj {sign : Char} {first second rest rest' : List Char}
    (hfirst : sign ∉ first) (hsecond : sign ∉ second)
    (h : first ++ sign :: rest = second ++ sign :: rest') : first = second ∧ rest = rest' := by
  have hall {part : List Char} (hpart : sign ∉ part) : part.all (· != sign) = true :=
    List.all_eq_true.2 fun c hc ↦ bne_iff_ne.2 fun heq ↦ hpart (heq ▸ hc)
  have hends (behind : List Char) : (sign :: behind).head?.any (· != sign) = false := by simp
  obtain ⟨hsame, h⟩ := append_inj_of_all (hall hfirst) (hall hsecond) (hends _) (hends _) h
  exact ⟨hsame, (List.cons.inj h).2⟩

namespace Node

/-! ## Well-formed nodes -/

/-- Does a name of a tag have the character? -/
def isTagNameChar (c : Char) : Bool := c.isAlphanum || c == '-'

/-- Is it a name of letters, digits and hyphens that starts with a letter? -/
def isTagName (name : String) : Bool :=
  name.toList.head?.any Char.isAlpha && name.toList.all isTagNameChar

mutual

/-- Is it a text that is not empty, or an element of such nodes? Its tag is a name, but not that of
an element whose text is written as it is. If the element is void, it has no children. The name of
an attribute has no equals sign. -/
def isWellFormed : Node → Bool
  | root _ => false
  | text value => value != ""
  | element tag attributes nodes =>
    isTagName tag && !rawTextTags.contains tag &&
      attributes.entries.all (fun entry ↦ !entry.1.toList.contains '=') &&
      (!voidTags.contains tag || nodes.isEmpty) && areWellFormed nodes

/-- Are the nodes well-formed, with no text right after a text? -/
def areWellFormed : List Node → Bool
  | [] => true
  | node :: rest =>
    isWellFormed node && !(node.isText && rest.head?.any isText) && areWellFormed rest

end

theorem isWellFormed_element_iff {tag : String} {attributes : Attributes} {nodes : List Node} :
    isWellFormed (element tag attributes nodes) = true ↔
      isTagName tag = true ∧ tag ∉ rawTextTags ∧
        (∀ entry ∈ attributes.entries, '=' ∉ entry.1.toList) ∧
        (tag ∈ voidTags → nodes = []) ∧ areWellFormed nodes = true := by
  rw [isWellFormed]
  simp [and_assoc, imp_iff_not_or]

theorem areWellFormed_cons_iff {node : Node} {rest : List Node} :
    areWellFormed (node :: rest) = true ↔
      isWellFormed node = true ∧ (node.isText = true → rest.head?.any isText = false) ∧
        areWellFormed rest = true := by
  rw [areWellFormed]
  simp [and_assoc, imp_iff_not_or]

/-! ## Escapes -/

theorem escapeText_injective : Function.Injective escapeText := by
  intro first second h
  have hfirst := Html.Token.decode_escapeText first (Nat.lt_succ_self _)
  have hsecond := Html.Token.decode_escapeText second (Nat.lt_succ_self _)
  rw [← hfirst, ← hsecond, h]

theorem escapedValue_injective :
    Function.Injective fun value : List Char ↦ value.flatMap escapedValueChar := by
  intro first second h
  have hfirst := Html.Token.decode_flatMap_escapedValueChar first (Nat.lt_succ_self _)
  have hsecond := Html.Token.decode_flatMap_escapedValueChar second (Nat.lt_succ_self _)
  have h : first.flatMap escapedValueChar = second.flatMap escapedValueChar := h
  rw [← hfirst, ← hsecond, h]

/-! ## Tags -/

theorem attributeChars_append_inj {entries entries' : List (String × String)}
    (h : ∀ entry ∈ entries, '=' ∉ entry.1.toList) (h' : ∀ entry ∈ entries', '=' ∉ entry.1.toList)
    {rest rest' : List Char}
    (heq : entries.flatMap attributeChars ++ '>' :: rest =
      entries'.flatMap attributeChars ++ '>' :: rest') :
    entries = entries' ∧ rest = rest' := by
  induction entries generalizing entries' with
  | nil =>
    cases entries' with
    | nil => exact ⟨rfl, (List.cons.inj heq).2⟩
    | cons entry others => cases (List.cons.inj heq).1
  | cons entry others ih =>
    cases entries' with
    | nil => cases (List.cons.inj heq).1
    | cons entry' others' =>
      obtain ⟨hentry, hothers⟩ := List.forall_mem_cons.1 h
      obtain ⟨hentry', hothers'⟩ := List.forall_mem_cons.1 h'
      simp only [List.flatMap_cons, attributeChars, List.cons_append, List.append_assoc,
        List.nil_append] at heq
      obtain ⟨hname, heq⟩ := append_cons_inj hentry hentry' (List.cons.inj heq).2
      obtain ⟨hvalue, heq⟩ := append_cons_inj
        (Html.Token.quote_not_mem_flatMap_escapedValueChar entry.2.toList)
        (Html.Token.quote_not_mem_flatMap_escapedValueChar entry'.2.toList) (List.cons.inj heq).2
      obtain ⟨rfl, hrest⟩ := ih hothers hothers' heq
      have hsame : entry = entry' := Prod.ext (String.toList_inj.1 hname)
        (String.toList_inj.1 (escapedValue_injective hvalue))
      exact ⟨by rw [hsame], hrest⟩

/-- An opening tag is determined by the text that it stands before. -/
theorem openTag_append_inj {tag tag' : String} (htag : isTagName tag = true)
    (htag' : isTagName tag' = true) {attributes attributes' : Attributes}
    (h : ∀ entry ∈ attributes.entries, '=' ∉ entry.1.toList)
    (h' : ∀ entry ∈ attributes'.entries, '=' ∉ entry.1.toList) {rest rest' : List Char}
    (heq : openTag tag attributes ++ rest = openTag tag' attributes' ++ rest') :
    tag = tag' ∧ attributes = attributes' ∧ rest = rest' := by
  simp only [openTag, List.cons_append, List.append_assoc, List.nil_append] at heq
  have hends (entries : List (String × String)) (behind : List Char) :
      (entries.flatMap attributeChars ++ '>' :: behind).head?.any isTagNameChar = false := by
    cases entries with
    | nil => exact (by decide : isTagNameChar '>' = false)
    | cons entry others => exact (by decide : isTagNameChar ' ' = false)
  rw [isTagName, Bool.and_eq_true] at htag htag'
  obtain ⟨hname, heq⟩ := append_inj_of_all htag.2 htag'.2 (hends _ _) (hends _ _)
    (List.cons.inj heq).2
  obtain ⟨hentries, hrest⟩ := attributeChars_append_inj h h' heq
  obtain ⟨entries, sorted⟩ := attributes
  obtain ⟨entries', sorted'⟩ := attributes'
  obtain rfl : entries = entries' := hentries
  exact ⟨String.toList_inj.1 hname, rfl, hrest⟩

/-! ## Beginnings -/

/-- The markup of an element begins with no closing tag. -/
theorem exists_markup_of_not_isText {node : Node} (h : isWellFormed node = true)
    (hkind : node.isText = false) (rest : List Char) :
    ∃ c more, markup false node ++ rest = '<' :: c :: more ∧ c ≠ '/' := by
  cases node with
  | root nodes =>
    rw [isWellFormed] at h
    cases h
  | text value => cases hkind
  | element tag attributes nodes =>
    have htag := (isWellFormed_element_iff.1 h).1
    rw [isTagName, Bool.and_eq_true] at htag
    cases hchars : tag.toList with
    | nil => simp [hchars] at htag
    | cons first others =>
      have hfirst : first.isAlpha = true := by simpa [hchars] using htag.1
      have hne : first ≠ '/' := by
        rintro rfl
        exact absurd hfirst (by decide)
      rw [markup]
      split
      · exact ⟨first, _, by rw [openTag, hchars]; rfl, hne⟩
      · exact ⟨first, _, by rw [openTag, hchars]; rfl, hne⟩

/-- The markup of a text begins with no tag. -/
theorem exists_markup_of_isText {node : Node} (h : isWellFormed node = true)
    (hkind : node.isText = true) (rest : List Char) :
    ∃ c more, markup false node ++ rest = c :: more ∧ c ≠ '<' := by
  cases node with
  | root nodes => cases hkind
  | element tag attributes nodes => cases hkind
  | text value =>
    have hless := Html.Token.less_not_mem_escapeText value.toList
    rw [markup, if_neg Bool.false_ne_true]
    cases hchars : escapeText value.toList with
    | nil =>
      have hempty : value.toList = [] := escapeText_injective hchars
      exact absurd (String.toList_eq_nil_iff.1 hempty) (bne_iff_ne.1 h)
    | cons c others =>
      rw [hchars] at hless
      exact ⟨c, others ++ rest, rfl, fun heq ↦ hless (heq ▸ List.mem_cons_self)⟩

/-- A text is not taken for an element. -/
theorem markup_append_ne {node node' : Node} (h : isWellFormed node = true)
    (h' : isWellFormed node' = true) (hkind : node.isText = false) (hkind' : node'.isText = true)
    (rest rest' : List Char) : markup false node ++ rest ≠ markup false node' ++ rest' := by
  intro heq
  obtain ⟨c, more, helement, -⟩ := exists_markup_of_not_isText h hkind rest
  obtain ⟨c', more', htext, hne⟩ := exists_markup_of_isText h' hkind' rest'
  rw [helement, htext] at heq
  exact hne (List.cons.inj heq).1.symm

/-- Does a list of children end here? -/
def Ends (rest : List Char) : Prop := rest = [] ∨ ∃ more, rest = '<' :: '/' :: more

theorem ends_closeTag (tag : String) (rest : List Char) : Ends (closeTag tag ++ rest) :=
  .inr ⟨_, rfl⟩

/-- Children do not end where a node begins. -/
theorem not_ends_markup {node : Node} (h : isWellFormed node = true) (rest : List Char) :
    ¬Ends (markup false node ++ rest) := by
  cases hkind : node.isText with
  | false =>
    obtain ⟨c, more, heq, hne⟩ := exists_markup_of_not_isText h hkind rest
    rw [heq]
    rintro (hnil | ⟨others, hclosing⟩)
    · cases hnil
    · exact hne (List.cons.inj (List.cons.inj hclosing).2).1
  | true =>
    obtain ⟨c, more, heq, hne⟩ := exists_markup_of_isText h hkind rest
    rw [heq]
    rintro (hnil | ⟨others, hclosing⟩)
    · cases hnil
    · exact hne (List.cons.inj hclosing).1

/-- Behind a text comes a less-than sign or nothing. -/
theorem head?_markups_append {nodes : List Node} (h : areWellFormed nodes = true)
    (htext : nodes.head?.any isText = false) {rest : List Char} (hrest : Ends rest) :
    (markups false nodes ++ rest).head?.any (· != '<') = false := by
  cases nodes with
  | nil => obtain rfl | ⟨more, rfl⟩ := hrest <;> rfl
  | cons node others =>
    obtain ⟨c, more, heq, -⟩ := exists_markup_of_not_isText (areWellFormed_cons_iff.1 h).1 htext
      (markups false others ++ rest)
    rw [markups, List.append_assoc, heq]
    rfl

/-! ## Nodes -/

theorem markup_text_append_inj {value value' : String} {rest rest' : List Char}
    (hrest : rest.head?.any (· != '<') = false) (hrest' : rest'.head?.any (· != '<') = false)
    (heq : markup false (text value) ++ rest = markup false (text value') ++ rest') :
    value = value' ∧ rest = rest' := by
  have hall (text : List Char) : (escapeText text).all (· != '<') = true :=
    List.all_eq_true.2 fun c hc ↦ bne_iff_ne.2 fun hless ↦
      Html.Token.less_not_mem_escapeText text (hless ▸ hc)
  rw [markup, markup, if_neg Bool.false_ne_true, if_neg Bool.false_ne_true] at heq
  obtain ⟨hescaped, hsame⟩ := append_inj_of_all (hall _) (hall _) hrest hrest' heq
  exact ⟨String.toList_inj.1 (escapeText_injective hescaped), hsame⟩

/-- What is written behind the opening tag of an element. -/
theorem markup_element_append {tag : String} (hraw : tag ∉ rawTextTags) (attributes : Attributes)
    (nodes : List Node) (rest : List Char) :
    markup false (element tag attributes nodes) ++ rest =
      openTag tag attributes ++
        if tag ∈ voidTags then rest else markups false nodes ++ (closeTag tag ++ rest) := by
  rw [markup, decide_eq_false hraw]
  split
  · rfl
  · simp only [List.append_assoc]

mutual

/-- An element is determined by the text that its markup stands before. -/
theorem markup_append_inj : ∀ (node : Node) {node' : Node} {rest rest' : List Char},
    isWellFormed node = true → isWellFormed node' = true → node.isText = false →
    node'.isText = false → markup false node ++ rest = markup false node' ++ rest' →
    node = node' ∧ rest = rest'
  | root nodes, _, _, _, h, _, _, _, _ => by
    rw [isWellFormed] at h
    cases h
  | text value, _, _, _, _, _, hkind, _, _ => by cases hkind
  | element tag attributes nodes, node', rest, rest', h, h', _, hkind', heq => by
    cases node' with
    | root nodes' =>
      rw [isWellFormed] at h'
      cases h'
    | text value => cases hkind'
    | element tag' attributes' nodes' =>
      obtain ⟨htag, hraw, hnames, hvoid, hnodes⟩ := isWellFormed_element_iff.1 h
      obtain ⟨htag', hraw', hnames', hvoid', hnodes'⟩ := isWellFormed_element_iff.1 h'
      rw [markup_element_append hraw, markup_element_append hraw'] at heq
      obtain ⟨rfl, rfl, hbehind⟩ := openTag_append_inj htag htag' hnames hnames' heq
      by_cases hempty : tag ∈ voidTags
      · rw [if_pos hempty, if_pos hempty] at hbehind
        rw [hvoid hempty, hvoid' hempty]
        exact ⟨rfl, hbehind⟩
      · rw [if_neg hempty, if_neg hempty] at hbehind
        obtain ⟨rfl, hclosing⟩ := markups_append_inj nodes hnodes hnodes' (ends_closeTag tag rest)
          (ends_closeTag tag rest') hbehind
        exact ⟨rfl, List.append_cancel_left hclosing⟩

/-- Nodes are determined by the text that their markup stands before, if children end there. -/
theorem markups_append_inj : ∀ (nodes : List Node) {nodes' : List Node} {rest rest' : List Char},
    areWellFormed nodes = true → areWellFormed nodes' = true → Ends rest → Ends rest' →
    markups false nodes ++ rest = markups false nodes' ++ rest' → nodes = nodes' ∧ rest = rest'
  | [], nodes', rest, rest', _, h', hends, _, heq => by
    cases nodes' with
    | nil => exact ⟨rfl, heq⟩
    | cons node' others' =>
      rw [markups, markups, List.append_assoc, List.nil_append] at heq
      exact absurd (heq ▸ hends) (not_ends_markup (areWellFormed_cons_iff.1 h').1 _)
  | node :: others, nodes', rest, rest', h, h', hends, hends', heq => by
    cases nodes' with
    | nil =>
      rw [markups, markups, List.append_assoc, List.nil_append] at heq
      exact absurd (heq ▸ hends') (not_ends_markup (areWellFormed_cons_iff.1 h).1 _)
    | cons node' others' =>
      obtain ⟨hnode, hnext, hothers⟩ := areWellFormed_cons_iff.1 h
      obtain ⟨hnode', hnext', hothers'⟩ := areWellFormed_cons_iff.1 h'
      rw [markups, markups, List.append_assoc, List.append_assoc] at heq
      have hfirst : node = node' ∧
          markups false others ++ rest = markups false others' ++ rest' := by
        cases hkind : node.isText with
        | false =>
          cases hkind' : node'.isText with
          | false => exact markup_append_inj node hnode hnode' hkind hkind' heq
          | true => exact absurd heq (markup_append_ne hnode hnode' hkind hkind' _ _)
        | true =>
          cases hkind' : node'.isText with
          | false => exact absurd heq.symm (markup_append_ne hnode' hnode hkind' hkind _ _)
          | true =>
            have hbehind := head?_markups_append hothers (hnext hkind) hends
            have hbehind' := head?_markups_append hothers' (hnext' hkind') hends'
            obtain ⟨value, rfl⟩ := exists_eq_text hkind
            obtain ⟨value', rfl⟩ := exists_eq_text hkind'
            obtain ⟨rfl, hrest⟩ := markup_text_append_inj hbehind hbehind' heq
            exact ⟨rfl, hrest⟩
      obtain ⟨rfl, hbehind⟩ := hfirst
      obtain ⟨rfl, hrest⟩ := markups_append_inj others hothers hothers' hends hends' hbehind
      exact ⟨rfl, hrest⟩

end

/-- The markup of well-formed nodes determines them, so no text and no value is written like a part
of another node. -/
theorem injOn_renderHtml : Set.InjOn renderHtml {nodes | areWellFormed nodes = true} := by
  intro nodes h nodes' h' heq
  have hmarkups : markups false nodes ++ [] = markups false nodes' ++ [] := by
    rw [List.append_nil, List.append_nil]
    exact String.ofList_injective heq
  exact (markups_append_inj nodes h h' (.inl rfl) (.inl rfl) hmarkups).1

/-- An element with a value that closes it, and the text of its markup. -/
def imitated : Node :=
  element "a" (Attributes.ofList [("title", "\"></a>")]) [ofTag "br", text "&lt;"]

theorem renderHtml_imitation_ne :
    areWellFormed [imitated] = true ∧ areWellFormed [text (renderHtml [imitated])] = true ∧
      renderHtml [text (renderHtml [imitated])] ≠ renderHtml [imitated] := by
  have helement : areWellFormed [imitated] = true := by decide +kernel
  have htext : areWellFormed [text (renderHtml [imitated])] = true := by decide +kernel
  have hne : [text (renderHtml [imitated])] ≠ [imitated] := by simp [imitated]
  exact ⟨helement, htext, (injOn_renderHtml.ne_iff htext helement).2 hne⟩

end Node

end NotebookTree
