import ItemClient.Record.Schema

/-!
# Bundled record types

The record types of the project schema that the program is shipped with. They refer to each
other by name only, so `Catalog.bundled` can be extended by further types.
-/

namespace ItemClient

namespace Member

def field (wire : String) (kind : Kind) : Member := ⟨wire, .scalar kind⟩

/-- A field that may be absent. -/
def maybe (wire : String) (kind : Kind) : Member := ⟨wire, .scalar (.optional kind)⟩

def one (wire target : String) : Member := ⟨wire, .one target⟩

def many (wire target : String) : Member := ⟨wire, .many target⟩

end Member

namespace Models

open Member

/-- A record type with a UUID named `id` as its key, called after its collection. -/
def keyed (collection : String) (members : List Member) : Schema :=
  { model := collection, collection, keyWire := "id", keyKind := .uuid, members }

/-- Who created a record and who changed it last. -/
def authorship : List Member :=
  [one "user_created" "directus_users", one "user_updated" "directus_users"]

/-- When a record was created and when it was changed last. -/
def history : List Member :=
  [maybe "date_created" .timestamp, maybe "date_updated" .timestamp]

def user : Schema :=
  keyed "directus_users"
    [maybe "first_name" .text, maybe "last_name" .text, maybe "email" .text,
      maybe "title" .text, maybe "description" .text, maybe "language" .text,
      field "provider" .text, field "status" .text, maybe "last_access" .timestamp,
      maybe "telegram_chat_id" .text]

/-- A place where servers stand. -/
def location : Schema := keyed "location" [field "code" .text, field "name" .text]

/-- Something on sale. -/
def product : Schema :=
  keyed "product"
    [field "name" .text, maybe "description" .text, field "duration" .integer,
      field "price" .float, one "location" "location"]

/-- A proxy server. The collection spells the port of its control interface with two `l`. -/
def proxyServer : Schema :=
  keyed "proxy_server"
    [field "ip" .text, field "controll_port" .integer, maybe "description" .text,
      one "location" "location"]

/-- A code that lowers a price. -/
def promocode : Schema :=
  keyed "promocode" ([field "code" .text, field "discount" .float] ++ history ++ authorship)

def transaction : Schema :=
  keyed "transaction" (history ++ [maybe "metadata" .json] ++ authorship)

/-- A rented slot on a proxy server, with the widest graph of the schema. -/
def slot : Schema :=
  keyed "slot"
    ([maybe "annotation" .text, field "connection_port" .integer] ++ history ++
      [field "expires_at" .timestamp, field "password_base64" .text, maybe "status" .text,
        one "product" "product", one "server" "proxy_server", one "transaction" "transaction",
        one "used_promocode" "promocode", one "user" "directus_users"] ++ authorship)

end Models

/-- The bundled record types, in the order in which they are registered. -/
def Catalog.bundled : Catalog :=
  [Models.user, Models.location, Models.product, Models.proxyServer, Models.promocode,
    Models.transaction, Models.slot]

end ItemClient
