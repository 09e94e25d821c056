import MarkupGrammar.Markup.Attribute

/-!
# The tags of a document

A document under the author's hands is seldom well formed, so its tags are found by a scanner that
never fails. It knows the constructs that may hold a `<` of their own and passes over them whole:
comments, character-data sections, processing instructions and declarations. A quoted value may hold
`>`, and a `<` that can begin nothing is character data.

`Construct.ofText` says what begins after a `<`; `TagSpan.scan` is the scanner, which gives each tag
with the offsets it covers; `Tag` is what the checks work on, a tag with positions and attributes.
-/

namespace MarkupGrammar

namespace CodePoint

/-- Whether the code point can begin the name of an element: a letter, an underscore, a colon, or
anything from `À` on. -/
def beginsName (c : CodePoint) : Bool :=
  c.isAsciiLetter || c.val = 0xAA || c.val = 0xB5 || c.val = 0xBA || c.val = 0x5F || c.val = 0x3A
    || 0xC0 ≤ c.val

/-- Whether the code point continues the name of an element. -/
def continuesTagName (c : CodePoint) : Bool :=
  !(c.isMarkupSpace || c.val = 0x2F || c.val = 0x3E)

end CodePoint

/-- What a `<` begins. -/
inductive Construct where
  | comment
  | cdata
  | instruction
  | declaration
  | endTag
  | startTag
  | stray
deriving DecidableEq

namespace Construct

/-- What begins with a `<` that is followed by `r`, and the text after its opening delimiter. -/
def ofText (r : Text) : Construct × Text :=
  match Text.after? (Text.ofString "!--") r with
  | some body => (.comment, body)
  | none =>
    match Text.after? (Text.ofString "![CDATA[") r with
    | some body => (.cdata, body)
    | none =>
      match r with
      | [] => (.stray, [])
      | c :: body =>
        if c = CodePoint.ofChar '?' then (.instruction, body)
        else if c = CodePoint.ofChar '!' then (.declaration, body)
        else if c = CodePoint.ofChar '/' then (.endTag, body)
        else if c.beginsName then (.startTag, c :: body)
        else (.stray, c :: body)

end Construct

/-- What follows the first occurrence of a closing delimiter; nothing when it does not occur. -/
def Text.skipPast (mark t : Text) : Text :=
  match Text.cutAt? mark t with
  | some (_, rest) => rest
  | none => []

namespace TagSpan

/-- What follows a declaration: the first `>` outside quotes and outside the square brackets of an
internal subset ends it. -/
def skipDeclaration (depth : Int) : Option CodePoint → Text → Text
  | _, [] => []
  | some q, c :: r => skipDeclaration depth (if c = q then none else some q) r
  | none, c :: r =>
    if c.isQuote then skipDeclaration depth (some c) r
    else if c = CodePoint.ofChar '[' then skipDeclaration (depth + 1) none r
    else if c = CodePoint.ofChar ']' then skipDeclaration (depth - 1) none r
    else if c = CodePoint.ofChar '>' && depth ≤ 0 then r
    else skipDeclaration depth none r

/-- What stands before the `>` that ends a tag, and what follows it; a `>` inside quotes does not
end a tag. `none` when the text ends first. -/
def cutTag : Option CodePoint → Text → Text × Option Text
  | _, [] => ([], none)
  | some q, c :: r =>
    let (body, rest) := cutTag (if c = q then none else some q) r
    (c :: body, rest)
  | none, c :: r =>
    if c = CodePoint.ofChar '>' then ([], some r)
    else
      let (body, rest) := cutTag (if c.isQuote then some c else none) r
      (c :: body, rest)

end TagSpan

/-- The three kinds of tags. -/
inductive TagKind where
  | opening
  | closing
  | selfClosing
deriving DecidableEq

/-- A tag as it is written. It covers the offsets from `start`, where its `<` stands, up to `stop`;
its attribute text begins at `attrStart`. -/
structure TagSpan where
  kind : TagKind
  name : Text
  start : Nat
  stop : Nat
  attrText : Text
  attrStart : Nat
deriving DecidableEq

namespace TagSpan

/-- The attribute text of a start tag's body, and whether the body ends in a slash. -/
def splitSlash (body : Text) : Text × Bool :=
  let trimmed := Text.trimEnd body
  if Text.endsWith (Text.ofString "/") trimmed then (trimmed.dropLast, true) else (body, false)

/-- The end tag whose name begins `r`, and what follows it; without a name it is no tag. The text
has length `total`. -/
def endTag (total : Nat) (r : Text) : Option TagSpan × Text :=
  let name := r.takeWhile CodePoint.continuesTagName
  let (_, after) := cutTag none (r.dropWhile CodePoint.continuesTagName)
  let rest := after.getD []
  let span : TagSpan := ⟨.closing, name, total - r.length - 2, total - rest.length, [], 0⟩
  (if name.isEmpty then none else some span, rest)

/-- The start tag whose name begins `r`, and what follows it. The text has length `total`. -/
def startTag (total : Nat) (r : Text) : TagSpan × Text :=
  let name := r.takeWhile CodePoint.continuesTagName
  let (body, after) := cutTag none (r.dropWhile CodePoint.continuesTagName)
  let rest := after.getD []
  let (attrText, slash) := splitSlash body
  (⟨if slash then .selfClosing else .opening, name, total - r.length - 1, total - rest.length,
    attrText, total - r.length + name.length⟩, rest)

/-- The tag that begins with a `<` followed by `r`, if one does, and the text from which the scan
goes on. The text has length `total`. -/
def step (total : Nat) (r : Text) : Option TagSpan × Text :=
  match Construct.ofText r with
  | (.comment, body) => (none, Text.skipPast (Text.ofString "-->") body)
  | (.cdata, body) => (none, Text.skipPast (Text.ofString "]]>") body)
  | (.instruction, body) => (none, Text.skipPast (Text.ofString "?>") body)
  | (.declaration, body) => (none, skipDeclaration 0 none body)
  | (.endTag, body) => endTag total body
  | (.startTag, body) =>
    let (span, rest) := startTag total body
    (some span, rest)
  | (.stray, body) => (none, body)

end TagSpan

theorem Text.length_le_of_after? {lead t rest : Text} (h : Text.after? lead t = some rest) :
    rest.length ≤ t.length := by
  rw [Text.after?_eq_some_iff.1 h]
  simp

theorem Text.length_le_of_cutAt? {mark t before rest : Text}
    (h : Text.cutAt? mark t = some (before, rest)) : rest.length ≤ t.length := by
  induction t generalizing before rest with
  | nil =>
    unfold Text.cutAt? at h
    split at h
    · simp only [Option.some.injEq, Prod.mk.injEq] at h
      simp [← h.2]
    · simp at h
  | cons c r ih =>
    unfold Text.cutAt? at h
    split at h
    · next hm =>
      simp only [Option.some.injEq, Prod.mk.injEq] at h
      rw [← h.2]
      exact Text.length_le_of_after? hm
    · simp only [Option.map_eq_some_iff, Prod.mk.injEq] at h
      obtain ⟨⟨b, q⟩, hq, _, rfl⟩ := h
      exact Nat.le_succ_of_le (ih hq)

theorem Text.length_skipPast_le (mark t : Text) : (Text.skipPast mark t).length ≤ t.length := by
  unfold Text.skipPast
  split
  · next h => exact Text.length_le_of_cutAt? h
  · simp

theorem Construct.length_ofText_le (r : Text) : (Construct.ofText r).2.length ≤ r.length := by
  unfold Construct.ofText
  split
  · next h => exact Text.length_le_of_after? h
  · split
    · next h => exact Text.length_le_of_after? h
    · split
      · simp
      · repeat' split
        all_goals simp

namespace TagSpan

theorem length_skipDeclaration_le (depth : Int) (quote : Option CodePoint) (t : Text) :
    (skipDeclaration depth quote t).length ≤ t.length := by
  fun_induction skipDeclaration depth quote t <;> simp_all <;> omega

theorem length_cutTag_le (quote : Option CodePoint) (t : Text) :
    ((cutTag quote t).2.getD []).length ≤ t.length := by
  fun_induction cutTag quote t <;> simp_all <;> omega

theorem length_step_le (total : Nat) (r : Text) : (step total r).2.length ≤ r.length := by
  have h := Construct.length_ofText_le r
  unfold step
  split <;> rename_i body hb <;> rw [hb] at h <;> refine Nat.le_trans ?_ h
  · exact Text.length_skipPast_le _ _
  · exact Text.length_skipPast_le _ _
  · exact Text.length_skipPast_le _ _
  · exact length_skipDeclaration_le _ _ _
  · exact Nat.le_trans (length_cutTag_le _ _)
      (AttributeSpan.length_dropWhile_le CodePoint.continuesTagName body)
  · exact Nat.le_trans (length_cutTag_le _ _)
      (AttributeSpan.length_dropWhile_le CodePoint.continuesTagName body)
  · exact Nat.le_refl _

/-- The tags in a suffix of a text of length `total`. -/
def scanFrom (total : Nat) : Text → List TagSpan
  | [] => []
  | c :: r =>
    if c = CodePoint.ofChar '<' then (step total r).1.toList ++ scanFrom total (step total r).2
    else scanFrom total r
termination_by t => t.length
decreasing_by
  · exact Nat.lt_succ_of_le (length_step_le total r)
  · simp

/-- The tags of a text, in order. -/
def scan (t : Text) : List TagSpan := scanFrom t.length t

end TagSpan

/-- A tag with its position and its attributes, as the checks see it. -/
structure Tag where
  kind : TagKind
  name : Text
  position : Position
  attributes : List Attribute
deriving DecidableEq

namespace TagSpan

/-- The attributes of a tag in the indexed document. -/
def attributes (index : LineIndex) (span : TagSpan) : List Attribute :=
  Attribute.ofText index span.attrStart span.attrText

/-- The tag in the indexed document. -/
def locate (index : LineIndex) (span : TagSpan) : Tag :=
  ⟨span.kind, span.name, index.locate span.start, span.attributes index⟩

end TagSpan

namespace Tag

/-- The tags of a document, in order. -/
def ofText (t : Text) : List Tag :=
  (TagSpan.scan t).map (TagSpan.locate (LineIndex.ofText t))

end Tag

end MarkupGrammar
