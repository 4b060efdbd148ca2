import NotebookTree.Html.Dom

/-!
# Elements of SVG and MathML

Markup is read in lower case, while SVG and MathML tell upper from lower case. The tables of this
module restore the spelling of their names. Some attributes of these elements have a qualifier.
-/

namespace NotebookTree.Html.Foreign

/-- The SVG elements whose names have upper-case letters. -/
def svgTags : List String :=
  ["altGlyph", "altGlyphDef", "altGlyphItem", "animateColor", "animateMotion",
    "animateTransform", "clipPath", "feBlend", "feColorMatrix", "feComponentTransfer",
    "feComposite", "feConvolveMatrix", "feDiffuseLighting", "feDisplacementMap",
    "feDistantLight", "feDropShadow", "feFlood", "feFuncA", "feFuncB", "feFuncG", "feFuncR",
    "feGaussianBlur", "feImage", "feMerge", "feMergeNode", "feMorphology", "feOffset",
    "fePointLight", "feSpecularLighting", "feSpotLight", "feTile", "feTurbulence",
    "foreignObject", "glyphRef", "linearGradient", "radialGradient", "textPath"]

/-- The SVG attributes whose names have upper-case letters. -/
def svgAttributes : List String :=
  ["attributeName", "attributeType", "baseFrequency", "baseProfile", "calcMode",
    "clipPathUnits", "diffuseConstant", "edgeMode", "filterUnits", "glyphRef",
    "gradientTransform", "gradientUnits", "kernelMatrix", "kernelUnitLength", "keyPoints",
    "keySplines", "keyTimes", "lengthAdjust", "limitingConeAngle", "markerHeight",
    "markerUnits", "markerWidth", "maskContentUnits", "maskUnits", "numOctaves", "pathLength",
    "patternContentUnits", "patternTransform", "patternUnits", "pointsAtX", "pointsAtY",
    "pointsAtZ", "preserveAlpha", "preserveAspectRatio", "primitiveUnits", "refX", "refY",
    "repeatCount", "repeatDur", "requiredExtensions", "requiredFeatures", "specularConstant",
    "specularExponent", "spreadMethod", "startOffset", "stdDeviation", "stitchTiles",
    "surfaceScale", "systemLanguage", "tableValues", "targetX", "targetY", "textLength",
    "viewBox", "viewTarget", "xChannelSelector", "yChannelSelector", "zoomAndPan"]

/-- The attributes with a qualifier, as they are written. -/
def qualified : List (String × String × String) :=
  [("xlink:actuate", "xlink", "actuate"), ("xlink:arcrole", "xlink", "arcrole"),
    ("xlink:href", "xlink", "href"), ("xlink:role", "xlink", "role"),
    ("xlink:show", "xlink", "show"), ("xlink:title", "xlink", "title"),
    ("xlink:type", "xlink", "type"), ("xml:lang", "xml", "lang"),
    ("xml:space", "xml", "space"), ("xmlns:xlink", "xmlns", "xlink")]

/-- The name of a list that a lower-case name stands for. -/
def restore (names : List String) (name : String) : String :=
  (names.find? fun known ↦ Text.lowerAsciiString known == name).getD name

/-- The spelling of a tag in a vocabulary. -/
def tagName (vocabulary : Vocabulary) (name : String) : String :=
  match vocabulary with
  | .svg => restore svgTags name
  | _ => name

/-- The spelling of an attribute in a vocabulary. -/
def attributeName (vocabulary : Vocabulary) (name : String) : String :=
  match vocabulary with
  | .svg => restore svgAttributes name
  | .mathml => restore ["definitionURL"] name
  | .html => name

/-- An attribute of a foreign element. -/
def attributeOf (vocabulary : Vocabulary) (entry : String × String) : Attribute :=
  match qualified.lookup entry.1 with
  | some (qualifier, name) => ⟨some qualifier, name, entry.2⟩
  | none => ⟨none, attributeName vocabulary entry.1, entry.2⟩

/-- The HTML elements that end foreign content. -/
def endingTags : List String :=
  ["b", "big", "blockquote", "body", "br", "center", "code", "dd", "div", "dl", "dt", "em",
    "embed", "h1", "h2", "h3", "h4", "h5", "h6", "head", "hr", "i", "img", "li", "listing",
    "menu", "meta", "nobr", "ol", "p", "pre", "ruby", "s", "small", "span", "strong", "strike",
    "sub", "sup", "table", "tt", "u", "ul", "var"]

/-- Does an opening tag end foreign content? -/
def endsForeign (tag : Tag) : Bool :=
  tag.name ∈ endingTags ||
    (tag.name == "font" && tag.attributes.any fun entry ↦ entry.1 ∈ ["color", "face", "size"])

/-- The MathML elements that hold HTML text. -/
def holdsText (name : ElementName) : Bool :=
  name.vocabulary == .mathml && name.name ∈ ["mi", "mo", "mn", "ms", "mtext"]

/-- The SVG elements that hold HTML. -/
def holdsHtml (name : ElementName) : Bool :=
  name.vocabulary == .svg && name.name ∈ ["foreignObject", "desc", "title"]

end NotebookTree.Html.Foreign
