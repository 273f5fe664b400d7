import ZScript.Screen.Style
import ZScript.Analysis.Semantic

/-!
# The editor's colours

A dark palette, and the look of each class of semantic token: keywords bold, comments and
arguments italic, unresolved names underlined in the error colour. Text that no token covers
has the plain foreground colour.
-/

namespace ZScript

namespace Theme

def fg : Color := .rgb 205 214 244
def primary : Color := .rgb 137 180 250
def secondary : Color := .rgb 250 179 135
def comment : Color := .rgb 108 112 134
def success : Color := .rgb 166 227 161
def error : Color := .rgb 243 139 168
def warning : Color := .rgb 249 226 175
def keyword : Color := .rgb 203 166 247
def string : Color := .rgb 166 227 161
def number : Color := .rgb 250 179 135
def typeName : Color := .rgb 148 226 213
def constant : Color := .rgb 250 179 135
def field : Color := .rgb 180 190 254
def localVar : Color := .rgb 205 214 244
def method : Color := .rgb 137 180 250
def argument : Color := .rgb 235 160 172
def operator : Color := .rgb 137 220 235
def preprocessor : Color := .rgb 245 194 231
def borderFocused : Color := .rgb 249 226 175
def borderNormal : Color := .rgb 108 112 134
def currentLine : Color := .rgb 50 50 70

/-- The look of text of a semantic class; `none` for text no token covers. -/
def styleFor : Option SemanticKind → Style
  | none => ({} : Style).withFg fg
  | some k =>
    match k with
    | .comment => (({} : Style).withFg comment).withAttr .italic
    | .preprocessor => ({} : Style).withFg preprocessor
    | .keyword => (({} : Style).withFg keyword).withAttr .bold
    | .typeName => ({} : Style).withFg typeName
    | .constantName => ({} : Style).withFg constant
    | .number => ({} : Style).withFg number
    | .string => ({} : Style).withFg string
    | .field => ({} : Style).withFg field
    | .localVar => ({} : Style).withFg localVar
    | .method => ({} : Style).withFg method
    | .argument => (({} : Style).withFg argument).withAttr .italic
    | .operator => ({} : Style).withFg operator
    | .special => ({} : Style).withFg comment
    | .invalid => (({} : Style).withFg error).withAttr .underlined

/-- The look of a pane's border. -/
def border (focused : Bool) : Style :=
  if focused then (({} : Style).withFg borderFocused).withAttr .bold else ({} : Style).withFg borderNormal

end Theme

end ZScript
