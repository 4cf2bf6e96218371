import RouteDocs.Docs.Codec

/-!
# Route Contexts

What may be looked at when the documentation of one method of one file is inferred.

## Main Definitions

* `RouteContext`: a method, its URL, its file and the text of the file
* `RouteContext.source`: the part of the text that belongs to the method
-/

namespace RouteDocs

/-- One method of one route file. -/
structure RouteContext where
  /-- The request method. -/
  method : Text
  /-- The URL template. -/
  url : Text
  /-- The path of the file. -/
  file : Text
  /-- The text of the file. -/
  content : Text
  /-- The part of the text that belongs to the method, if it is known. -/
  ownPart : Option Text
  /-- The place of the signature, if it is known; a negative number counts from the end. -/
  handlerOffset : Option Int
  /-- Where clients obtain credentials. -/
  loginEndpoint : Text

namespace RouteContext

/-- Where clients obtain credentials unless something else is said. -/
def defaultLogin : Text := "/api/auth/signin"

/-- The text that belongs to the method, the whole file if that is not known. -/
def source (ctx : RouteContext) : Text :=
  ctx.ownPart.getD ctx.content

/-- The verb of the context, if its method is one. -/
def verb? (ctx : RouteContext) : Option Verb :=
  Verb.ofName? ctx.method

/-- The JSON form of a context. -/
def toJson (keepNulls : Bool) (ctx : RouteContext) : Json :=
  .record keepNulls [
    ("method", .str ctx.method),
    ("url", .str ctx.url),
    ("file", .str ctx.file),
    ("content", .str ctx.content),
    ("section", .ofText? ctx.ownPart),
    ("handlerOffset", ctx.handlerOffset.elim .null .int),
    ("loginEndpoint", .str ctx.loginEndpoint)]

/-- The context of a JSON form. -/
def decode (origin : Origin) : Decoder RouteContext :=
  Decoder.object origin fun ms =>
    (Decoded.of RouteContext.mk)
      |>.also (Decoder.member ms "method" "method" none Decoder.text)
      |>.also (Decoder.member ms "url" "url" none Decoder.text)
      |>.also (Decoder.member ms "file" "file" none Decoder.text)
      |>.also (Decoder.member ms "content" "content" none Decoder.text)
      |>.also (Decoder.member ms "section" "section" (some none) (Decoder.nullable Decoder.text))
      |>.also (Decoder.member ms "handlerOffset" "handler_offset" (some none)
        (Decoder.nullable Decoder.integer))
      |>.also (Decoder.member ms "loginEndpoint" "login_endpoint" (some defaultLogin) Decoder.text)

end RouteContext

end RouteDocs
