import Labeling.Request
import Labeling.Image.Png
import Labeling.Image.Jpeg
import Labeling.Json.Reader

/-!
# Calls to the backend

The address of a call is the address of the server followed by the path of the request.
Slashes at the end of the server's address do not count.

The body of a successful answer is JSON, where a body of nothing but blanks is `null`, or an
image. Of an image only the size is read, from the header of its file. The format of the file
is told by the first bytes; there are two.

* `requestUrl` is the address of a call;
* `jsonPayload` and `imageSize` read the body of an answer.
-/

namespace Labeling

/-! ## Addresses -/

/-- The address of a server without the slashes at its end. -/
def baseUrl (server : String) : String :=
  String.ofList ((server.toList.reverse.dropWhile (· == '/')).reverse)

/-- The address of a request, without its query. -/
def requestUrl (server : String) (r : Request) : String := baseUrl server ++ r.path

/-! ## JSON -/

/-- The blanks that are plain characters: those that a body of a response may consist
of and still count as empty. -/
def isPlainBlank (b : UInt8) : Bool := b == 0x20 || b == 0x09 || b == 0x0A || b == 0x0C || b == 0x0D

/-- The JSON of a body. -/
def jsonPayload (bytes : List UInt8) : Response :=
  if bytes.all isPlainBlank then .ok (.json .null)
  else
    match Json.ofBytes? bytes with
    | some v => .ok (.json v)
    | none => .error (.json Json.unreadable)

/-! ## Images -/

/-- The size of the image in a file, if it can be read. -/
def imageFileDims? (bytes : List UInt8) : Option Dims :=
  if Png.signature.isPrefixOf bytes then Png.dims? (bytes.drop Png.signature.length)
  else if Jpeg.signature.isPrefixOf bytes then Jpeg.dims? (bytes.drop 2)
  else none

/-- The size of an image given as a file. -/
def imageSize (bytes : List UInt8) : Except Failure Dims :=
  match imageFileDims? bytes with
  | some dims => .ok dims
  | none => .error (.image "unknown format")

end Labeling
