import EventBooking.Lib.Registry
import EventBooking.Services

/-!
# The User Service

`createUser` looks an address up and then inserts it under a unique constraint.
The schema, the service and the repository each bring the address to one
spelling, which is the same the second and the third time.
-/

namespace EventBooking
open Lib

/-! ## Spellings of an address -/

theorem whiteSpace_range : ∀ w ∈ whiteSpace, w.val < 'A'.val ∨ 'z'.val < w.val := by simp [whiteSpace]

theorem whiteSpace_toLower (c : Char) : whiteSpace.contains c.toLower = whiteSpace.contains c := by
  by_cases h : c.val ≥ 'A'.val ∧ c.val ≤ 'Z'.val
  · have hlower : c.toLower.val = c.val + ('a'.val - 'A'.val) := by
      unfold Char.toLower
      rw [dif_pos h]
    have hno : ∀ d : Char, 'A'.val ≤ d.val → d.val ≤ 'z'.val → whiteSpace.contains d = false := by
      intro d h1 h2
      cases hd : whiteSpace.contains d with
      | false => rfl
      | true =>
        have := whiteSpace_range d (List.contains_iff_mem.mp hd)
        grind
    rw [hno c h.1 (by grind), hno c.toLower (by rw [hlower]; grind) (by rw [hlower]; grind)]
  · have hsame : c.toLower = c := by
      unfold Char.toLower
      rw [dif_neg h]
    rw [hsame]

theorem dropWhile_rdropWhile {α : Type} (p : α → Bool) (l : List α) :
    (List.rdropWhile p (l.dropWhile p)).dropWhile p = List.rdropWhile p (l.dropWhile p) := by
  have hself := List.dropWhile_eq_self_iff.mp (List.dropWhile_idempotent p l)
  have hshort := List.rdropWhile_prefix p (l := l.dropWhile p)
  rw [List.dropWhile_eq_self_iff]
  intro hl
  rw [hshort.getElem hl]
  exact hself (Nat.lt_of_lt_of_le hl hshort.length_le)

theorem trim_trim (s : String) : trim (trim s) = trim s := by
  have htrim : ∀ s, trim s = String.ofList
      (List.rdropWhile whiteSpace.contains (s.toList.dropWhile whiteSpace.contains)) :=
    fun _ => rfl
  rw [htrim (trim s), htrim s, String.toList_ofList, dropWhile_rdropWhile, List.rdropWhile_idempotent]

theorem trim_toLowerCase (s : String) : trim (toLowerCase s) = toLowerCase (trim s) := by
  have hspace : whiteSpace.contains ∘ Char.toLower = whiteSpace.contains := funext whiteSpace_toLower
  unfold trim toLowerCase
  simp only [String.toList_ofList]
  rw [List.dropWhile_map, ← List.map_reverse, List.dropWhile_map, hspace, List.map_reverse]

theorem toLowerCase_toLowerCase (s : String) : toLowerCase (toLowerCase s) = toLowerCase s := by
  unfold toLowerCase
  rw [String.toList_ofList, List.map_map]
  congr 1
  exact List.map_congr_left fun c _ => Char.toLower_toLower_eq_toLower c

/-- `email.trim().toLowerCase()` -/
def normalEmail (email : String) : String := toLowerCase (trim email)

@[simp] theorem normalEmail_idem (email : String) : normalEmail (normalEmail email) = normalEmail email := by
  unfold normalEmail
  rw [trim_toLowerCase, trim_trim, toLowerCase_toLowerCase]

/-! ## Errors -/

def UserErrors.duplicateEmail : AppError := ⟨"DUPLICATE_EMAIL", "Email already exists", 409⟩

def UserErrors.notFound : AppError := ⟨"USER_NOT_FOUND", "User not found", 404⟩

def UserErrors.validation (message : String) : AppError := ⟨"VALIDATION_ERROR", message, 400⟩

inductive UserFailure
  | zod (message : String)
  | app (e : AppError)
  | db (e : DbError)
  deriving DecidableEq

/-- `errorHandler` of the User Service, but for the request id it adds. -/
def userErrorHandler : UserFailure → AppError
  | .zod message => UserErrors.validation message
  | .app e => e
  | .db _ => ⟨"INTERNAL_ERROR", "Internal server error", 500⟩

/-! ## Requests -/

/-- The address format of the schema library, which admits ASCII only. -/
class ZodEmail where
  email : String → Bool

structure CreateUserInput where
  name : String
  email : String
  deriving DecidableEq

/-- `createUserSchema` on two strings, with the message of the first issue. -/
def createUserSchema [ZodEmail] (body : CreateUserInput) : Except String CreateUserInput :=
  let name := trim body.name
  let email := trim body.email
  if name = "" then .error "Name is required"
  else if email = "" then .error "Email is required"
  else if ZodEmail.email email then .ok ⟨name, toLowerCase email⟩
  else .error "Email must be valid"

theorem createUserSchema_normal [ZodEmail] {body input : CreateUserInput} (h : createUserSchema body = .ok input) :
    input.email = normalEmail body.email ∧ input.name = trim body.name := by
  unfold createUserSchema at h
  grind [normalEmail]

/-! ## Rows -/

structure UserRow where
  id : Uuid
  name : String
  email : String
  createdAt : Date
  updatedAt : Date
  deriving DecidableEq

def userSchema : Schema UserRow Uuid String := ⟨(·.id), fun r => some r.email⟩

@[simp] theorem user_key (r : UserRow) : userSchema.key r = r.id := rfl
@[simp] theorem user_unique (r : UserRow) : userSchema.unique r = some r.email := rfl

abbrev UserDb := Table userSchema

structure UserDto where
  id : String
  name : String
  email : String
  createdAt : String
  updatedAt : String
  deriving DecidableEq

def UserRow.mapRow (row : UserRow) : UserDto where
  id := row.id.text
  name := row.name
  email := row.email
  createdAt := toISOString row.createdAt
  updatedAt := toISOString row.updatedAt

namespace PrismaUserRepository

def row (input : CreateUserInput) (id : RandomUUID) (createdAt updatedAt : Date) : UserRow where
  id := id.val
  name := input.name
  email := normalEmail input.email
  createdAt := createdAt
  updatedAt := updatedAt

def findByEmail (email : String) (db : UserDb) : Option UserDto :=
  (db.rows.find? fun r => r.email = normalEmail email).map UserRow.mapRow

def findById (id : String) (db : UserDb) : Except DbError (Option UserDto) := do
  let (row, _) ← findUnique (fun db : UserDb => db) id db
  return row.map UserRow.mapRow

end PrismaUserRepository

/-- `getUserById` of the service. -/
def getUserById (id : String) (db : UserDb) : Except UserFailure UserDto :=
  match PrismaUserRepository.findById id db with
  | .error e => .error (.db e)
  | .ok none => .error (.app UserErrors.notFound)
  | .ok (some user) => .ok user

theorem getUserById_mem {db : UserDb} {row : UserRow} (h : row ∈ db.rows) :
    getUserById row.id.text db = .ok row.mapRow := by
  have hfind : db.find row.id = some row := Table.find_eq_some.mpr ⟨h, rfl⟩
  have hrow : PrismaUserRepository.findById row.id.text db = .ok (some row.mapRow) := by
    unfold PrismaUserRepository.findById
    rw [findUnique_eq_ok.mpr ⟨row.id, Uuid.cast_text row.id, rfl, rfl⟩, hfind]; rfl
  unfold getUserById
  rw [hrow]

theorem findByEmail_mem {db : UserDb} {row : UserRow} {email : String} (h : row ∈ db.rows)
    (he : row.email = normalEmail email) :
    PrismaUserRepository.findByEmail email db = some row.mapRow := by
  unfold PrismaUserRepository.findByEmail
  rw [← he]
  cases hf : db.rows.find? fun r => decide (r.email = row.email) with
  | none => simpa using List.find?_eq_none.mp hf row h
  | some row' =>
    have hemail : row'.email = row.email := by simpa using List.find?_some hf
    rw [Table.unique_inj (List.mem_of_find?_eq_some hf) h (congrArg some hemail) rfl]; rfl

end EventBooking
