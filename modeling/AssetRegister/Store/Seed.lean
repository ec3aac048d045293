import AssetRegister.Store.Database

/-!
# Sample rows

A small consistent set of rows for trying the register out. `Database.seed` adds them table by table:
a table's rows are added together or not at all, and the first refusal ends the seeding.
-/

namespace AssetRegister.Seed

def rowOf (columns : List String) (values : List Value) : List (String × Value) :=
  columns.zip values

def users : List (List (String × Value)) :=
  [[.integer 1, .text "alice", .text "ADMIN", .text "2024-01-02 09:00:00", .integer 1,
      .text "avatars/alice.png"],
    [.integer 2, .text "bob", .text "USER", .text "2024-01-03 10:30:00", .integer 1, .null],
    [.integer 3, .text "JOHNNY", .text "USER", .text "2024-02-11 16:45:00", .integer 0, .null],
    [.integer 4, .text "carol", .text "USER", .text "2024-03-20 08:15:00", .integer 1, .null]].map
  (rowOf (Entity.selectColumns .users))

def userGroups : List (List (String × Value)) :=
  [[.integer 1, .text "engineering", .integer 1, .text "2024-01-05 12:00:00", .integer 3],
    [.integer 2, .text "design", .integer 2, .text "2024-01-06 12:00:00", .integer 2]].map
  (rowOf (Entity.selectColumns .userGroups))

def assets : List (List (String × Value)) :=
  [[.integer 1, .text "Laptop Pro", .text "Work laptop", .integer 1, .null, .text "DEVICE",
      .text "PRIVATE", .text "2024-01-05 09:00:00", .null, .integer 2, .integer 3],
    [.integer 2, .text "Rust Book", .null, .null, .null, .text "BOOK",
      .text "PUBLIC", .text "2024-01-07 09:00:00", .null, .integer 0, .integer 1],
    [.integer 3, .text "Design Specs", .text "Q1 mockups", .null, .integer 2, .text "FILE",
      .text "GROUP", .text "2024-02-01 14:00:00", .text "2024-02-03 11:00:00", .integer 40,
      .integer 2],
    [.integer 4, .text "Team Laptop", .null, .null, .integer 1, .text "DEVICE",
      .text "GROUP", .text "2024-02-10 08:30:00", .null, .integer 12, .integer 5],
    [.integer 5, .text "Alice Notes", .text "Meeting notes", .integer 1, .null, .text "FILE",
      .text "PRIVATE", .text "2024-03-01 17:20:00", .null, .integer 31, .integer 1],
    [.integer 6, .text "Bob Phone", .null, .integer 2, .null, .text "DEVICE",
      .text "PRIVATE", .text "2024-03-04 13:00:00", .null, .integer 0, .integer 2],
    [.integer 7, .text "Public Handbook", .text "Onboarding", .null, .null, .text "FILE",
      .text "PUBLIC", .text "2024-03-15 10:00:00", .null, .integer 30, .integer 4],
    [.integer 8, .text "Johnny Tablet", .null, .integer 3, .null, .text "DEVICE",
      .text "PRIVATE", .text "2024-04-02 19:10:00", .null, .integer 7, .integer 1]].map
  (rowOf (Entity.selectColumns .assets))

def assetFiles : List (List (String × Value)) :=
  [[.integer 1, .integer 5, .text "PRIVATE", .text "notes.txt", .text "text/plain", .integer 1200,
      .text "private/1/notes.txt", .integer 1, .text "2024-03-01 17:21:00"],
    [.integer 2, .integer 5, .text "PRIVATE", .text "notes-v2.txt", .text "text/plain",
      .integer 1800, .text "private/1/notes-v2.txt", .integer 1, .text "2024-03-02 09:00:00"],
    [.integer 3, .integer 3, .text "GROUPS", .text "specs.pdf", .text "application/pdf",
      .integer 52000, .text "groups/2/specs.pdf", .integer 2, .text "2024-02-01 14:05:00"],
    [.integer 4, .integer 7, .text "PUBLIC", .text "handbook.pdf", .text "application/pdf",
      .integer 98000, .text "public/handbook.pdf", .integer 1, .text "2024-03-15 10:01:00"],
    [.integer 5, .integer 2, .text "PUBLIC", .text "rust.epub", .text "application/epub+zip",
      .integer 4100000, .text "public/rust.epub", .integer 2, .text "2024-01-07 09:05:00"],
    [.integer 6, .integer 3, .text "GROUPS", .text "mockup.png", .text "image/png",
      .integer 230000, .text "groups/2/mockup.png", .integer 2, .text "2024-02-02 10:00:00"],
    [.integer 7, .integer 1, .text "PRIVATE", .text "invoice.pdf", .text "application/pdf",
      .integer 15000, .text "private/1/invoice.pdf", .integer 1, .text "2024-01-05 09:10:00"],
    [.integer 8, .integer 7, .text "PRIVATE", .text "misfiled.pdf", .text "application/pdf",
      .integer 900, .text "private/misfiled.pdf", .integer 1, .text "2024-03-16 08:00:00"]].map
  (rowOf (Entity.selectColumns .assetFiles))

def suppliers : List (List (String × Value)) :=
  [[.integer 1, .text "Acme Components", .text "Acme", .text "active", .text "MANUFACTURER",
      .text "Dana Li", .text "555-0100", .text "dana@acme.test", .text "EU", .integer 1, .integer 1,
      .text "2024-01-10 09:00:00"],
    [.integer 2, .text "Northwind Logistics", .null, .text "inactive", .text "DISTRIBUTOR",
      .text "Sam Ortiz", .text "555-0101", .null, .text "NA", .integer 2, .integer 1,
      .text "2024-02-10 09:00:00"],
    [.integer 3, .text "Sandy Paper Co", .text "Sandy", .text "active", .text "MANUFACTURER",
      .text "Lee Park", .text "555-0102", .text "lee@sandy.test", .null, .integer 1, .integer 2,
      .text "2024-03-10 09:00:00"]].map
  (rowOf (Entity.selectColumns .suppliers))

def rows : Entity → List (List (String × Value))
  | .users => users
  | .userGroups => userGroups
  | .assets => assets
  | .assetFiles => assetFiles
  | .suppliers => suppliers

/-- Adds the sample rows of the given entities in turn. -/
def add (db : Database) : List Entity → Database × Option StoreFault
  | [] => (db, none)
  | e :: rest =>
    match db.insertAll e (rows e) with
    | .ok db => add db rest
    | .error fault => (db, some fault)

end AssetRegister.Seed

namespace AssetRegister.Database

/-- Adds the sample rows, and gives the first refusal if there is one. -/
def seed (db : Database) : Database × Option StoreFault := Seed.add db Entity.all

def seeded : Database := (seed {}).1

end AssetRegister.Database
