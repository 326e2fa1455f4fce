import GlslFormula.Json
import GlslFormula.Token

namespace GlslFormula

def Span.toJson (span : Span) : Json :=
  .object [("start", .number span.start), ("end", .number span.stop)]

def Token.toJson (token : Token) : Json :=
  .object
    [("kind", .string token.kind.key), ("text", .string token.text),
      ("span", token.span.toJson)]

end GlslFormula
