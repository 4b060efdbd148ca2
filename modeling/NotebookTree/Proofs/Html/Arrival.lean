import NotebookTree.Proofs.Html.Frame.Flow
import NotebookTree.Proofs.Html.Fragment

/-!
# Reading up to a place

The reading of a text goes on from one place to the next. Between two tags a text is read in one
step, so a text that comes right after another one is not read yet when its place is reached: it
waits there until a tag is read.
-/

namespace NotebookTree.Html.Builder

open Node (escapeText)

variable {w : Watch} {holder : OpenElement} {below : List OpenElement} {ms : List Mark}
  {b final : Builder} {rest : List Char} {inv : List Mark → Builder → Prop} {allows : Char → Bool}

/-- The invariant holds, except that the builder may be about to drop a line feed, with which the
text to come does not start. -/
structure Ready (inv : List Mark → Builder → Prop) (ms : List Mark) (cs : List Char) (b : Builder) :
    Prop where
  holds : inv ms { b with dropLineFeed := false }
  keeps : b.dropLineFeed = true → ∃ c rest, cs = c :: rest ∧ c ≠ '\n'

/-- A reading that ends in the final builder comes to the rest of the text. The marks are those of
the tree there and of a text that waits, of allowed characters. -/
def Arrives (inv : List Mark → Builder → Prop) (allows : Char → Bool) (ms : List Mark)
    (rest : List Char) (final : Builder) : Prop :=
  ∃ (limit : Nat) (b : Builder) (before : List Mark) (waiting : List Char),
    b.Ready inv before (escapeText waiting ++ rest) ∧ (∀ c ∈ waiting, allows c = true) ∧
      before ++ waiting.map .char = ms ∧ (escapeText waiting ++ rest).length < limit ∧
      b.readAll limit (escapeText waiting ++ rest) = final

/-! ## Dropping a line feed -/

/-- A token that does not start with a line feed is accepted as it would be otherwise. -/
theorem accept_eq_of_ne {token : Token} (htoken : ∀ rest, token ≠ .characters ('\n' :: rest)) :
    b.accept token = { b with dropLineFeed := false }.accept token := by
  unfold accept
  split
  · exact absurd rfl (htoken _)
  · rfl
  · rfl
  · rfl

namespace Ready

theorem of_holds (h : inv ms b) (hdrop : b.dropLineFeed = false) (cs : List Char) :
    b.Ready inv ms cs where
  holds := by
    rw [← hdrop]
    exact h
  keeps htrue := absurd (hdrop.symm.trans htrue) Bool.false_ne_true

/-- The next token is accepted as by a builder that drops nothing. -/
theorem accept_eq {cs : List Char} (h : b.Ready inv ms cs) {token : Token}
    (htoken : ∀ rest, token = .characters ('\n' :: rest) → cs.head? = some '\n') :
    b.accept token = { b with dropLineFeed := false }.accept token := by
  cases hdrop : b.dropLineFeed with
  | false => rw [← hdrop]
  | true =>
    obtain ⟨c, rest, rfl, hc⟩ := h.keeps hdrop
    exact accept_eq_of_ne fun rest heq ↦ hc (Option.some.inj (htoken rest heq))

/-- A text that waits is read at last. -/
theorem exists_readAll_escapeText {text : List Char} (h : b.Ready inv ms (escapeText text ++ rest))
    (hreading : b.reading = .markup) (hnull : '\x00' ∉ text) (hne : text ≠ [])
    (hrest : rest = [] ∨ ∃ more, rest = '<' :: more) {limit : Nat}
    (hlimit : (escapeText text ++ rest).length < limit) :
    ∃ limit', rest.length < limit' ∧
      b.readAll limit (escapeText text ++ rest) =
        ({ b with dropLineFeed := false }.accept (.characters text)).readAll limit' rest := by
  obtain ⟨limit', hlimit', hread⟩ := exists_readAll_eq hreading (Token.escapeText_ne_nil hne)
    (fun foreign ↦ Token.readMarkup_escapeText foreign hne hnull hrest) hlimit
  refine ⟨limit', hlimit', ?_⟩
  rw [hread, List.foldl_cons, List.foldl_nil, h.accept_eq fun more heq ↦ ?_]
  cases heq
  rfl

end Ready

/-! ## From place to place -/

namespace Arrives

theorem of_holds (h : inv ms b) (hdrop : b.dropLineFeed = false) {limit : Nat}
    (hlimit : rest.length < limit) : Arrives inv allows ms rest (b.readAll limit rest) :=
  ⟨limit, b, ms, [], .of_holds h hdrop _, nofun, List.append_nil ms, hlimit, rfl⟩

/-- An escaped text waits. -/
theorem text {text : List Char} (h : Arrives inv allows ms (escapeText text ++ rest) final)
    (htext : ∀ c ∈ text, allows c = true) :
    Arrives inv allows (ms ++ text.map .char) rest final := by
  obtain ⟨limit, b, before, waiting, hready, hwaiting, rfl, hlimit, hread⟩ := h
  have hjoined : escapeText waiting ++ (escapeText text ++ rest) =
      escapeText (waiting ++ text) ++ rest := by
    rw [← List.append_assoc]
    exact congrArg (· ++ rest) List.flatMap_append.symm
  rw [hjoined] at hready hlimit hread
  refine ⟨limit, b, before, waiting ++ text, hready, ?_, ?_, hlimit, hread⟩
  · exact List.forall_mem_append.2 ⟨hwaiting, htext⟩
  · rw [List.map_append, List.append_assoc]

/-- Another invariant may be taken that follows from the one there. -/
theorem imp {inv' : List Mark → Builder → Prop} {allows' : Char → Bool}
    (h : Arrives inv allows ms rest final) (hinv : ∀ ms b, inv ms b → inv' ms b)
    (hallows : ∀ c, allows c = true → allows' c = true) : Arrives inv' allows' ms rest final := by
  obtain ⟨limit, b, before, waiting, hready, hwaiting, hms, hlimit, hread⟩ := h
  exact ⟨limit, b, before, waiting, ⟨hinv _ _ hready.holds, hready.keeps⟩,
    fun c hc ↦ hallows c (hwaiting c hc), hms, hlimit, hread⟩

end Arrives

/-! ## In content of any kind -/

/-- May the character stand in a text in content of any kind? -/
def isTextChar (c : Char) : Bool := c != '\x00'

theorem null_not_mem_of_isTextChar {text : List Char} (h : ∀ c ∈ text, isTextChar c = true) :
    '\x00' ∉ text := fun hmem ↦ absurd (h _ hmem) (by decide)

/-- With the invariant a builder reads markup, and any text is added to its marks. -/
structure AcceptsText (inv : List Mark → Builder → Prop) : Prop where
  reading_eq : ∀ {ms : List Mark} {b : Builder}, inv ms b → b.reading = .markup
  accept : ∀ {ms : List Mark} {b : Builder} (text : List Char), inv ms b →
    inv (ms ++ text.map .char) (b.accept (.characters text))

theorem Flows.acceptsText : AcceptsText (Flows w holder below) :=
  ⟨fun h ↦ h.steady.reading_eq, fun text h ↦ h.accept_characters text⟩

/-- At first the content of the wrapper is read. -/
theorem flows_empty : empty.Flows w wrapper [] [] where
  steady := steady_empty
  framed := ⟨rfl, .of_thinned (.refl _), ⟨by decide, nofun, nofun⟩⟩

theorem Flows.arrives (h : b.Flows w holder below ms) {limit : Nat} (hlimit : rest.length < limit) :
    Arrives (Flows w holder below) isTextChar ms rest (b.readAll limit rest) :=
  .of_holds h h.steady.dropLineFeed_eq hlimit

namespace Arrives

/-- A tag is read by a builder with the invariant. -/
theorem exists_readAll_accept (hinv : AcceptsText inv) {cs : List Char} {token : Token}
    (h : Arrives inv isTextChar ms (cs ++ rest) final) (htoken : Token.Written token cs) :
    ∃ (limit : Nat) (b : Builder), rest.length < limit ∧ inv ms b ∧
      (b.accept token).readAll limit rest = final := by
  obtain ⟨limit, b, before, waiting, hready, hwaiting, rfl, hlimit, hread⟩ := h
  obtain ⟨more, hcs⟩ := htoken.exists_eq_cons
  have hnotText (text : List Char) : token ≠ .characters text := by
    cases htoken <;> nofun
  have hreading : b.reading = .markup := (hinv.reading_eq hready.holds :)
  by_cases hne : waiting = []
  · subst hne
    obtain ⟨limit', hlimit', hread'⟩ := exists_readAll_tag hreading htoken hlimit
    refine ⟨limit', _, hlimit', by simpa using hready.holds, ?_⟩
    rw [← hready.accept_eq fun rest heq ↦ absurd heq (hnotText _), ← hread']
    exact hread
  · obtain ⟨limit₁, hlimit₁, hread₁⟩ := hready.exists_readAll_escapeText hreading
      (null_not_mem_of_isTextChar hwaiting) hne (.inr ⟨more ++ rest, congrArg (· ++ rest) hcs⟩)
      hlimit
    have hafter := hinv.accept waiting hready.holds
    obtain ⟨limit₂, hlimit₂, hread₂⟩ :=
      exists_readAll_tag (hinv.reading_eq hafter) htoken hlimit₁
    exact ⟨limit₂, _, hlimit₂, hafter, by rw [← hread₂, ← hread₁, hread]⟩

theorem startTag {tag : Tag} {cs : List Char}
    (h : Arrives (Flows w holder below) isTextChar ms (cs ++ rest) final)
    (htag : w.Spares tag.name) (hname : isModalName tag.name = false)
    (hwritten : Token.Written (.startTag tag) cs) :
    Arrives (Flows w holder below) isTextChar ms rest final := by
  obtain ⟨limit, b, hlimit, hflows, rfl⟩ := h.exists_readAll_accept Flows.acceptsText hwritten
  exact (hflows.accept_startTag htag hname).arrives hlimit

theorem endTag {name : String} {cs : List Char}
    (h : Arrives (Flows w holder below) isTextChar ms (cs ++ rest) final)
    (hname : isModalName name = false) (hwritten : Token.Written (.endTag name) cs) :
    Arrives (Flows w holder below) isTextChar ms rest final := by
  obtain ⟨limit, b, hlimit, hflows, rfl⟩ := h.exists_readAll_accept Flows.acceptsText hwritten
  exact (hflows.accept_endTag hname).arrives hlimit

/-- At the end of the text the builder has the marks. -/
theorem steady (h : Arrives (Flows w holder below) isTextChar ms [] final) :
    final.Steady w (contentMode holder) ms := by
  obtain ⟨limit, b, before, waiting, hready, hwaiting, rfl, hlimit, rfl⟩ := h
  have hend (limit : Nat) (b : Builder) : b.readAll limit [] = b := by cases limit <;> rfl
  by_cases hne : waiting = []
  · subst hne
    have hdrop : b.dropLineFeed = false := by
      by_contra hdrop
      obtain ⟨c, rest, hcs, -⟩ := hready.keeps (by simpa using hdrop)
      exact List.cons_ne_nil _ _ hcs.symm
    have hflows := hready.holds
    rw [← hdrop] at hflows
    show (b.readAll limit []).Steady w (contentMode holder) (before ++ [])
    rw [hend, List.append_nil]
    exact hflows.steady
  · obtain ⟨limit', -, hread⟩ := hready.exists_readAll_escapeText hready.holds.steady.reading_eq
      (null_not_mem_of_isTextChar hwaiting) hne (.inl rfl) hlimit
    rw [hread, hend]
    exact (hready.holds.accept_characters waiting).steady

end Arrives

end NotebookTree.Html.Builder
