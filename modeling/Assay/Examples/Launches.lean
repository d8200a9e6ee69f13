import Assay.Examples.Program
import Assay.Shape

/-!
# Example: launches

Validates an answer of a web service about past rocket launches with the interpreter and with the
compiled routine, then a batch of answers of which some are flawed, and turns one into typed values.
A time that the program would measure is written as `<time>`.
-/

namespace Assay.Examples.Launches

/-- The answer of the service. -/
def answer : Draft :=
  let core : Draft :=
    .object
      [("flight", .word "number"),
        ("core",
          .object [("reuse_count", .word "number"), ("status", .nullable (.word "string"))])]
  let payload : Draft :=
    .object
      [("payload_type", .word "string"),
        ("payload_mass_kg", .nullable (.word "number")),
        ("payload_mass_lbs", .nullable (.word "number"))]
  let rocket : Draft :=
    .object
      [("rocket_name", .word "string"),
        ("first_stage", .object [("cores", .array core)]),
        ("second_stage", .object [("payloads", .array payload)])]
  let ship : Draft :=
    .object [("name", .word "string"), ("home_port", .word "string"), ("image", .word "string")]
  let launch : Draft :=
    .object
      [("mission_name", .word "string"),
        ("launch_date_local", .word "string"),
        ("launch_site", .object [("site_name_long", .word "string")]),
        ("links",
          .object [("article_link", .nullable (.word "string")), ("video_link", .word "string")]),
        ("rocket", rocket),
        ("ships", .array ship)]
  .object [("data", .object [("launchesPast", .array launch)])]

/-- The value of a launch whose payload has a mass. -/
def launch (number : Nat) (mass : Json) : Json :=
  object
    [("mission_name", .string ("Mission " ++ toString number)),
      ("launch_date_local", .string "2020-12-06T11:17:00-05:00"),
      ("launch_site",
        object [("site_name_long", .string "Kennedy Space Center Historic Launch Complex 39A")]),
      ("links",
        object [("article_link", .null), ("video_link", .string "https://youtu.be/example")]),
      ("rocket",
        object
          [("rocket_name", .string "Falcon 9"),
            ("first_stage",
              object
                [("cores", .array
                  [object
                    [("flight", .ofInt (1 + number % 5 : Nat)),
                      ("core",
                        object
                          [("reuse_count", .ofInt (number % 4 : Nat)), ("status", .null)])]])]),
            ("second_stage",
              object
                [("payloads", .array
                  [object
                    [("payload_type", .string "Dragon 2.0"), ("payload_mass_kg", mass),
                      ("payload_mass_lbs", .ofInt 6552)]])])]),
      ("ships", .array
        [object
          [("name", .string "Ben"), ("home_port", .string "Port Canaveral"),
            ("image", .string "https://i.imgur.com/example.jpg")]])]

/-- The mass of a sample payload. -/
def sampleMass : Json := .ofInt 2972

/-- The value of an answer with some launches. -/
def payload (launches : List Json) : Json :=
  object [("data", object [("launchesPast", .array launches)])]

/-- An answer with sample launches only. -/
def sample (count : Nat) : Json :=
  payload ((List.range count).map fun number => launch number sampleMass)

/-- An answer of a batch.  In every seventh one launch has a payload whose mass is not a number. -/
def batchEntry (index : Nat) : Json :=
  payload ((List.range 3).map fun number =>
    launch number (if index % 7 = 0 ∧ number = index % 3 then .string "heavy" else sampleMass))

/-- The number of answers in a batch. -/
def batchSize : Nat := 256

/-- What is kept of a launch. -/
structure Summary where
  missionName : String
  date : String
  rocketName : String

/-- Reads what is kept of a launch. -/
def summary? (value : Json) : Option Summary := do
  return {
    missionName := ← Shape.string? (← value.get? "mission_name")
    date := ← Shape.string? (← value.get? "launch_date_local")
    rocketName := ← Shape.string? (← (← value.get? "rocket").get? "rocket_name") }

/-- Reads what is kept of an answer. -/
def summaries? (value : Json) : Option (List Summary) := do
  Shape.list? summary? (← (← value.get? "data").get? "launchesPast")

/-- The line about a launch. -/
def Summary.line (summary : Summary) : String :=
  summary.missionName ++ " on " ++ summary.date ++ " (" ++ summary.rocketName ++ ")"

/-- The text of a truth value. -/
def yesNo (value : Bool) : String := if value then "true" else "false"

/-- The line about many checks of one value, which all have the same verdict. -/
def roundsLine (start : String) (accepted : Bool) : String :=
  start ++ "10000 checks in <time> (all ok: " ++ yesNo accepted ++ ")"

/-- The reasons for the rejected answers of a batch, with their indices. -/
def rejections (compiled : Compiled) : Building (List (Nat × String)) := do
  let results ← (List.range batchSize).mapM fun index => do
    match ← request (·.assertCompiled compiled {} (some (batchEntry index))) with
    | .ok () => return none
    | .error error => return some (index, error.message)
  return results.filterMap id

/-- The program. -/
def program : Building (List String) := do
  let schema ← answer.build
  match ← request (·.compile schema) with
  | .error _ => return []
  | .ok compiled =>
      let data := sample 10
      let interpreted ← request (·.check schema {} (some data))
      let accepted ← request (·.checkCompiled compiled {} (some data))
      let rejected ← rejections compiled
      let asserted ← request (·.assertCompiled compiled {} (some (sample 2)))
      let summaries := match asserted with
        | .ok () => (summaries? (sample 2)).getD []
        | .error _ => []
      return ["Compiled in <time> (" ++ toString compiled.source.utf8ByteSize ++
          " chars of routine source)",
        roundsLine "Interpreted: " interpreted,
        roundsLine "Compiled:    " accepted,
        "",
        "Parallel batch: " ++ toString batchSize ++ " payloads, " ++ toString rejected.length ++
          " rejected in <time>"] ++
        (rejected.take 3).map (fun (index, message) =>
          "  #" ++ toString index ++ ": " ++ message) ++
        [""] ++ summaries.map Summary.line

end Assay.Examples.Launches
