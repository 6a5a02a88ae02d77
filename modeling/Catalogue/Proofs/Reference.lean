import Catalogue.Proofs.Asked
import Catalogue.Proofs.Table

/-!
# A catalogue without a cache

What clients would see if there were only the rows: `Reference.reply` is the answer to an
operation, `Reference.after` are the rows behind it, and `Reference.transcript` are the answers to
a sequence of requests. Which identifier a new row gets is up to the store, so every request comes
with the one that a row created by it would get.
-/

namespace Catalogue

open Http

/-- A request, and the identifier of the row that it creates, if it creates one. -/
structure Visit where
  requestId : String
  request : Request
  fresh : Int64

/-- What a client sees of a response. -/
def Http.Response.seen (response : Response) : Nat × String := (response.status, response.body)

namespace Reference

/-! ### What is shown

The texts of answers are put together here from their pieces, without the writers that answer
requests. That those write the same is `productText_eq`, `listText_eq`, `idText_eq` and
`countText_eq`.
-/

/-- A number in hexadecimal digits, which are two at least. -/
def twoDigits (n : Nat) : String :=
  (if n < 0x10 then "0" else "") ++ String.ofList (Nat.toDigits 16 n)

/-- A character of a string. Quotes, backslashes and control characters are escaped, and five of the
last have a letter of their own. -/
def escaped (c : Char) : String :=
  match c with
  | '"' => "\\\""
  | '\\' => "\\\\"
  | '\x08' => "\\b"
  | '\x0C' => "\\f"
  | '\n' => "\\n"
  | '\r' => "\\r"
  | '\t' => "\\t"
  | c => if c.toNat < 0x20 then "\\u00" ++ twoDigits c.toNat else String.singleton c

/-- A string between quotes. -/
def quoted (text : String) : String := "\"" ++ String.join (text.toList.map escaped) ++ "\""

/-- A product. -/
def productText (product : Product) : String :=
  "\x7b\"id\":" ++ toString product.id.toInt ++ ",\"name\":" ++ quoted product.name ++
    ",\"additionalInfo\":" ++ quoted product.info ++ "\x7d"

/-- Products. -/
def listText (products : List Product) : String :=
  "[" ++ String.intercalate "," (products.map productText) ++ "]"

/-- The identifier of a product that was created. -/
def idText (id : Int64) : String := "\x7b\"id\":" ++ toString id.toInt ++ "\x7d"

/-- The number of products that were deleted. -/
def countText (count : Nat) : String := "\x7b\"deletedRows\":" ++ toString count ++ "\x7d"

variable (fresh : Int64) (table : Table)

/-- The answer about one product, as it is in its row. -/
def replyRow (id : Int64) : Nat × String :=
  match table.row? id with
  | some row => (200, productText row)
  | none => (404, "\x7b\"error\":\"Product not found\"\x7d")

/-- The answer to an operation. -/
def reply : Operation → Nat × String
  | .fetch id | .update id _ | .delete id => replyRow table id
  | .list => (200, listText table.rows)
  | .page window => (200, listText (window.slice table.rows))
  | .create _ => (201, idText fresh)
  | .deleteAll => (200, countText table.rows.length)
  | .ping => (204, "")

/-- The rows behind an operation. -/
def after : Operation → Table
  | .create draft => table.put (draft.withId fresh)
  | .update id draft => table.replace (draft.withId id)
  | .delete id => table.remove id
  | .deleteAll => Table.empty
  | .fetch _ | .list | .page _ | .ping => table

/-- The answer to a request, and the rows behind it. -/
def serve (visit : Visit) : (Nat × String) × Table :=
  match asked visit.request with
  | .error refusal => ((visit.request.trim refusal).seen, table)
  | .ok operation =>
    let shown := reply visit.fresh table operation
    ((shown.1, if visit.request.method = "HEAD" then "" else shown.2),
      after visit.fresh table operation)

/-- The answers to requests that come one after another. -/
def transcript : Table → List Visit → List (Nat × String)
  | _, [] => []
  | table, visit :: rest => (serve table visit).1 :: transcript (serve table visit).2 rest

/-- The operations that are answered with the row of a product as it was before. -/
def Shows (id : Int64) : Operation → Prop
  | .fetch k | .update k _ | .delete k => k = id
  | _ => False

end Reference

end Catalogue
