import Catalogue.Proofs.Asked
import Catalogue.Proofs.Residents
import Catalogue.Proofs.Written

/-!
# Records are read as they were written

An object is written member by member. Its reader fills the fields of a record member by member,
and when each key names a free field and each value is of its kind (`Schema.Fills`), it ends with
all of them (`Schema.readMembers_of_fills`) and the record is what was written
(`Schema.decode_writeObject`). Products and drafts are two instances.
-/

namespace Catalogue

open Utf8

namespace Json

/-- The bytes of a member. -/
def memberBytes (member : String × List Char) : Input :=
  encode (writeText member.1 ++ ':' :: member.2)

/-- What stands in front of a member. -/
def opening (first : Bool) : Input := if first then [] else [Byte.comma]

/-- The bytes of members inside an object. -/
def body (first : Bool) : List (String × List Char) → Input
  | [] => []
  | member :: members => opening first ++ (memberBytes member ++ body false members)

theorem encode_intercalate (members : List (String × List Char)) :
    encode ([','].intercalate (members.map fun (key, value) => writeText key ++ ':' :: value)) =
      body true members := by
  have hrest : ∀ member members,
      encode ([','].intercalate ((member :: members).map fun (key, value) =>
        writeText key ++ ':' :: value)) = memberBytes member ++ body false members := by
    intro member members
    induction members generalizing member with
    | nil => simp [memberBytes, body]
    | cons next members ih =>
      have hnext := ih next
      rw [List.map_cons] at hnext
      rw [List.map_cons, List.map_cons, List.intercalate_cons_cons, encode_append, hnext,
        encode_append, List.append_assoc]
      rfl
  cases members with
  | nil => rfl
  | cons member members => exact hrest member members

theorem encode_writeObject (members : List (String × List Char)) :
    encode (writeObject members) = Byte.openBrace :: (body true members ++ [Byte.closeBrace]) := by
  unfold writeObject
  rw [encode_append, encode_cons, encode_intercalate]
  rfl

theorem length_le_body (first : Bool) (members : List (String × List Char)) :
    members.length ≤ (body first members).length := by
  induction members generalizing first with
  | nil => exact Nat.zero_le _
  | cons member members ih =>
    have hmember : 0 < (memberBytes member).length := by
      unfold memberBytes
      rw [encode_append, encode_writeText]
      simp
    have hrest := ih false
    rw [body, List.length_append, List.length_append, List.length_cons]
    omega

theorem nextMember_writeText (first : Bool) (key : String) (rest : Input) :
    nextMember first (opening first ++ (encode (writeText key) ++ rest)) = .ok (.key key rest) := by
  have hkey : nextMember.readKey Byte.quote (between key ++ Byte.quote :: rest) =
      .ok (.key key rest) := by
    unfold nextMember.readKey
    rw [if_pos rfl, readText_between]
  rw [encode_writeText, List.cons_append, List.append_assoc, List.singleton_append]
  cases first with
  | true => exact hkey
  | false => exact hkey

theorem stops_body (members : List (String × List Char)) (rest : Input) :
    Stops (body false members ++ Byte.closeBrace :: rest) := by
  cases members with
  | nil => exact Or.inr rfl
  | cons member members => exact Or.inl rfl

end Json

namespace Schema

open Json

variable {α : Type} {schema : Schema α}

/-- Members that fill the fields of a record one after another: each key names a field that is
still free, and the value is one that the field takes. -/
inductive Fills (schema : Schema α) : Members → List (String × List Char) → Members → Prop
  | nil (seen : Members) : Fills schema seen [] seen
  | cons {seen next last : Members} {field : Field} {key : String} {value : List Char}
      {members : List (String × List Char)} :
      schema.field? key = some field → seen.has field = false →
        (∀ rest, Stops rest → seen.read field (encode value ++ rest) = .ok (next, rest)) →
          Fills schema next members last → Fills schema seen ((key, value) :: members) last

/-- **Members are read as they were written**, if they fill fields. -/
theorem readMembers_of_fills {seen last : Members} {members : List (String × List Char)}
    (h : schema.Fills seen members last) (first : Bool) (rest : Input) {limit : Nat}
    (hlimit : members.length < limit) :
    schema.readMembers first seen (body first members ++ Byte.closeBrace :: rest) limit =
      .ok (last, rest) := by
  induction h generalizing first limit with
  | nil seen =>
    obtain ⟨limit, rfl⟩ : ∃ n, limit = n + 1 := ⟨limit - 1, by omega⟩
    rfl
  | @cons seen next last field key value members hfield hfree hread _ ih =>
    obtain ⟨limit, rfl⟩ : ∃ n, limit = n + 1 := ⟨limit - 1, by omega⟩
    rw [List.length_cons] at hlimit
    have hinput : body first ((key, value) :: members) ++ Byte.closeBrace :: rest =
        opening first ++ (encode (writeText key) ++ (Byte.colon :: (encode value ++
          (body false members ++ Byte.closeBrace :: rest)))) := by
      simp only [body, memberBytes, encode_append, encode_cons, List.append_assoc]
      rfl
    have hmember : schema.readMember seen key (Byte.colon :: (encode value ++
        (body false members ++ Byte.closeBrace :: rest))) =
          .ok (next, body false members ++ Byte.closeBrace :: rest) := by
      unfold readMember
      rw [hfield]
      dsimp only
      rw [hfree]
      exact hread _ (stops_body members rest)
    rw [readMembers, hinput, nextMember_writeText]
    dsimp only
    rw [hmember]
    exact ih false (by omega)

/-- **A record is read as it was written**, if the members fill its fields. -/
theorem decode_writeObject {members : List (String × List Char)} {seen : Members} {record : α}
    (h : schema.Fills {} members seen) (hbuild : schema.build seen = .ok record) :
    schema.decode (encode (writeObject members)) = .ok record := by
  have hmembers : schema.readMembers true {} (body true members ++ [Byte.closeBrace])
      ((body true members ++ [Byte.closeBrace]).length + 1) = .ok (seen, []) := by
    have hlength := length_le_body true members
    refine readMembers_of_fills h true [] ?_
    rw [List.length_append]
    omega
  have hread : schema.read (encode (writeObject members)) = .ok (record, []) := by
    rw [encode_writeObject]
    show schema.readObject (body true members ++ [Byte.closeBrace]) = _
    unfold readObject
    rw [hmembers]
    dsimp only
    rw [hbuild]
  unfold decode
  rw [hread]
  rfl

end Schema

/-! ### The fields of a record -/

namespace Members

variable (seen : Members) {rest : Json.Input}

theorem read_id (id : Int64) (h : Json.Stops rest) :
    seen.read .id (encode (Numeral.ofInt id.toInt) ++ rest) =
      .ok ({ seen with id := some id }, rest) := by
  unfold read
  dsimp only
  rw [Json.readInt64Value_ofInt id h]
  rfl

theorem read_name (name : String) (rest : Json.Input) :
    seen.read .name (encode (Json.writeText name) ++ rest) =
      .ok ({ seen with name := some name }, rest) := by
  unfold read
  dsimp only
  rw [Json.readTextValue_writeText]
  rfl

theorem read_info (info : String) (rest : Json.Input) :
    seen.read .info (encode (Json.writeText info) ++ rest) =
      .ok ({ seen with info := some info }, rest) := by
  unfold read
  dsimp only
  rw [Json.readTextValue_writeText]
  rfl

end Members

theorem Product.fills (product : Product) :
    Product.schema.Fills {}
      [("id", Numeral.ofInt product.id.toInt), ("name", Json.writeText product.name),
        ("additionalInfo", Json.writeText product.info)]
      ⟨product.id, product.name, product.info⟩ := by
  have hid : Product.schema.field? "id" = some .id := rfl
  have hname : Product.schema.field? "name" = some .name := rfl
  have hinfo : Product.schema.field? "additionalInfo" = some .info := rfl
  refine .cons hid rfl (fun rest h => Members.read_id _ product.id h) ?_
  refine .cons hname rfl (fun rest _ => Members.read_name _ product.name rest) ?_
  refine .cons hinfo rfl (fun rest _ => Members.read_info _ product.info rest) ?_
  exact .nil _

theorem Draft.fills (draft : Draft) :
    Draft.schema.Fills {}
      [("name", Json.writeText draft.name), ("additionalInfo", Json.writeText draft.info)]
      ⟨none, draft.name, draft.info⟩ := by
  have hname : Draft.schema.field? "name" = some .name := rfl
  have hinfo : Draft.schema.field? "additionalInfo" = some .info := rfl
  refine .cons hname rfl (fun rest _ => Members.read_name _ draft.name rest) ?_
  refine .cons hinfo rfl (fun rest _ => Members.read_info _ draft.info rest) ?_
  exact .nil _

theorem Product.decode_encode (product : Product) :
    Product.decode (bytes product.encode) = .ok product := by
  unfold Product.encode
  rw [bytes_ofList]
  exact Schema.decode_writeObject product.fills rfl

theorem Draft.decode_encode (draft : Draft) : Draft.decode (bytes draft.encode) = .ok draft := by
  unfold Draft.encode
  rw [bytes_ofList]
  exact Schema.decode_writeObject draft.fills rfl

theorem Product.bytes_encode_injective :
    Function.Injective fun product : Product => bytes product.encode := by
  intro product other h
  have hread : Product.decode (bytes product.encode) = Product.decode (bytes other.encode) :=
    congrArg Product.decode h
  rw [Product.decode_encode, Product.decode_encode] at hread
  exact Except.ok.inj hread

theorem Draft.bytes_encode_injective :
    Function.Injective fun draft : Draft => bytes draft.encode := by
  intro draft other h
  have hread : Draft.decode (bytes draft.encode) = Draft.decode (bytes other.encode) :=
    congrArg Draft.decode h
  rw [Draft.decode_encode, Draft.decode_encode] at hread
  exact Except.ok.inj hread

/-! ### Where products are shown -/

/-- What is cached for a product once it was set is its text. -/
theorem Cache.peek?_set_self (cache : Cache) (product : Product) :
    (cache.set product).2.peek? product.id = some product.encode := by
  obtain ⟨kept, hkept, -⟩ := cache.exists_entries_set product
  unfold peek?
  rw [hkept]
  exact List.lookup_cons_self

/-- The responses that show a product: one whose text was fetched, and one that was updated or
deleted. -/
inductive Http.Response.Shows : Response → Product → Prop
  | fetched (product : Product) (warnings : List Fault) :
      Shows (tell (.fetch product.id) (.ok ⟨product.encode, warnings⟩)) product
  | updated (product : Product) (draft : Draft) (warnings : List Fault) :
      Shows (tell (.update product.id draft) (.ok ⟨product, warnings⟩)) product
  | deleted (product : Product) (warnings : List Fault) :
      Shows (tell (.delete product.id) (.ok ⟨product, warnings⟩)) product

theorem Http.Response.Shows.body_eq {response : Response} {product : Product}
    (h : response.Shows product) : response.body = product.encode := by
  cases h <;> rfl

/-- **What is written is read back**: every product and every draft is what its text decodes to,
whatever characters are in it and whatever its identifier is. So different products have different
texts, and neither what is cached for them nor the body of a response that shows one of them is
ever the same. -/
theorem Product.read_back :
    (∀ product : Product, Product.decode (bytes product.encode) = .ok product) ∧
      (∀ draft : Draft, Draft.decode (bytes draft.encode) = .ok draft) ∧
      (Function.Injective fun product : Product => bytes product.encode) ∧
      (Function.Injective fun draft : Draft => bytes draft.encode) ∧
      (∀ (product other : Product) (cache cache' : Cache), product ≠ other →
        (cache.set product).2.peek? product.id ≠ (cache'.set other).2.peek? other.id) ∧
      ∀ (product other : Product) (response response' : Http.Response), product ≠ other →
        response.Shows product → response'.Shows other →
          bytes response.body ≠ bytes response'.body := by
  refine ⟨Product.decode_encode, Draft.decode_encode, Product.bytes_encode_injective,
    Draft.bytes_encode_injective, ?_, ?_⟩
  · intro product other cache cache' hne heq
    rw [Cache.peek?_set_self, Cache.peek?_set_self] at heq
    exact hne (Product.bytes_encode_injective (congrArg bytes (Option.some.inj heq)))
  · intro product other response response' hne hshows hshows' heq
    rw [hshows.body_eq, hshows'.body_eq] at heq
    exact hne (Product.bytes_encode_injective heq)

/-- Escapes, a control character, one above the basic plane, and the least identifier. -/
example :
    let product : Product := ⟨Int64.ofInt (-0x8000000000000000), "\"\\\n\x01\x7F", "𝄞"⟩
    product.encode = "\x7b\"id\":-9223372036854775808,\"name\":\"\\\"\\\\\\n\\u0001\x7F\"," ++
      "\"additionalInfo\":\"𝄞\"\x7d" := by
  decide

end Catalogue
