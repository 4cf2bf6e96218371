import RouteDocs.Handler.Section
import RouteDocs.Handler.Title
import RouteDocs.Infer.Parameters
import RouteDocs.Infer.Headers
import RouteDocs.Infer.Body
import RouteDocs.Infer.Responses
import RouteDocs.Route.Url

/-!
# Endpoints

Puts together what is inferred for one method of a route file.

## Main Definitions

* `ParsedRoute`: a method that a file handles
* `ParsedRoute.context`: what may be looked at for it
* `ParsedRoute.endpoint`: its documentation
* `ParsedRoute.ofFile`: the methods that a file handles

## Design Notes

If the answers of a handler cannot be inferred, the endpoint has none and everything else of it
is kept.
-/

namespace RouteDocs

/-- A method that a route file handles. -/
structure ParsedRoute where
  /-- The request method. -/
  method : Text
  /-- The URL template. -/
  url : Text
  /-- The path of the file. -/
  file : Text
  /-- The text of the file. -/
  content : Text

namespace ParsedRoute

/-- What may be looked at for a route, with the place where clients obtain credentials. -/
def context (route : ParsedRoute) (login : Option Text) : RouteContext :=
  { method := route.method
    url := route.url
    file := route.file
    content := route.content
    ownPart := some (Handler.source route.content route.method)
    handlerOffset := (Handler.offset? route.content route.method).map Int.ofNat
    loginEndpoint := (login.bind Text.nonempty?).getD RouteContext.defaultLogin }

/-- The documentation of a route. -/
def endpoint (route : ParsedRoute) (login : Option Text) : Endpoint :=
  let ctx := route.context login
  let (title, description) := Title.infer ctx
  let authentication := Authentication.infer ctx
  { method := route.method
    url := route.url
    file := route.file
    title := some title
    description := some description
    summary := some title
    parameters := Parameter.infer ctx
    responses := match Response.infer ctx with
      | .ok responses => responses
      | .error _ => []
    requestHeaders := RequestHeader.infer ctx
    requestBody := RequestBody.infer ctx
    tags := Route.tags ctx.file
    requiresAuth := authentication.required
    authentication := some authentication }

/-- The methods that a file handles, with its URL as seen from a root directory. -/
def ofFile (file content : Text) (root : Option Text) : List ParsedRoute :=
  (Handler.verbs content).map fun v => ⟨v.name, Route.url file root, file, content⟩

end ParsedRoute

end RouteDocs
