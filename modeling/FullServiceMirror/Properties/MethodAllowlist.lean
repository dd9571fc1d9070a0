import FullServiceMirror.Private.Requests

/-!
# The method allowlist and repeated members

`validate_method` looks at the tree that `serde_json` builds, in which the last
of several `method` members stays, while the text itself is what is POSTed. The
check therefore says nothing about the `method` members before the last one.
-/
namespace FullServiceMirror

open Json

/-- What is assumed of `serde_json::from_str`: it accepts only RFC 8259 texts, and
of several members with one key the last one stays. -/
structure SerdeJson (fromStr : String → Except String Value) : Prop where
  accepts : ∀ text value, fromStr text = .ok value → ∃ d, document text = some d ∧ value = d.toValue

def listed : Document → Bool
  | .string s => SUPPORTED_ENDPOINTS.any fun endpoint => endpoint = s
  | _ => false

/-- Every `method` member of the outermost object is a supported endpoint. -/
def EveryMethodListed (text : String) : Prop :=
  ∀ d, document text = some d → ∀ method ∈ d.membersOf "method", listed method = true

/-- Every `method` member that a later one replaces is a supported endpoint. -/
def ReplacedMethodsListed (text : String) : Prop :=
  ∀ d, document text = some d → ∀ method ∈ (d.membersOf "method").dropLast, listed method = true

variable {fromStr : String → Except String Value}

theorem asStr_toValue (d : Document) (s : String) (value : asStr d.toValue = some s) :
    d = .string s := by
  cases d with
  | string s' =>
    cases value
    rfl
  | _ => cases value

/-- A text that passes the check has a `method` member, and the last one is listed. -/
theorem validateMethod_last (serde : SerdeJson fromStr) (text : String)
    (passed : validateMethod fromStr text = .ok true) :
    ∃ d method, document text = some d ∧ (d.membersOf "method").getLast? = some method ∧
      listed method = true := by
  unfold validateMethod at passed
  cases parsed : fromStr text with
  | error e =>
    rw [parsed] at passed
    cases passed
  | ok value =>
    rw [parsed] at passed
    obtain ⟨d, read, rfl⟩ := serde.accepts text value parsed
    have allowed : SUPPORTED_ENDPOINTS.any (fun s => s = (asStr (index d.toValue "method")).getD "") =
        true := Except.ok.inj passed
    -- The default is no endpoint, so there was a string to look at.
    have present : ∃ s, asStr (index d.toValue "method") = some s := by
      cases found : asStr (index d.toValue "method") with
      | some s => exact ⟨s, rfl⟩
      | none =>
        rw [found] at allowed
        exact absurd allowed (by decide)
    obtain ⟨s, found⟩ := present
    rw [found] at allowed
    rw [index, member_toValue, lastMember_topMembers] at found
    -- Indexing the value finds the last member of the text.
    cases last : (d.membersOf "method").getLast? with
    | none =>
      rw [last] at found
      cases found
    | some method =>
      rw [last] at found
      have text_method : method = .string s := asStr_toValue method s found
      subst text_method
      exact ⟨d, .string s, read, last, allowed⟩

/-- **What the allowlist enforces.** A text that passes the check has only
supported endpoints among its `method` members exactly when those that a later
`method` member replaces are supported endpoints. -/
theorem allowlist_holds_iff (serde : SerdeJson fromStr) (text : String)
    (passed : validateMethod fromStr text = .ok true) :
    EveryMethodListed text ↔ ReplacedMethodsListed text := by
  obtain ⟨d, method, read, last, allowed⟩ := validateMethod_last serde text passed
  have split : d.membersOf "method" = (d.membersOf "method").dropLast ++ [method] :=
    (List.dropLast_append_getLast? method last).symm
  constructor
  · intro every d' read' method' member
    exact every d' read' method' (List.dropLast_subset _ member)
  · intro replaced d' read' method' member
    rw [read] at read'
    cases read'
    rw [split, List.mem_append, List.mem_singleton] at member
    rcases member with earlier | rfl
    · exact replaced d read method' earlier
    · exact allowed

/-- The parser made of the reader is what is assumed. -/
theorem parse_serdeJson : SerdeJson parse where
  accepts := by
    intro text value accepted
    unfold parse at accepted
    split at accepted
    next d read =>
      split at accepted
      · cases accepted
        exact ⟨d, read, rfl⟩
      · cases accepted
    · cases accepted

/-- A text with two methods, both supported. -/
def twoMethods : String := "\x7b\"method\": \"get_account\", \"method\": \"get_block\"\x7d"

theorem allowlist_holds_iff_twoMethods :
    (EveryMethodListed twoMethods ↔ ReplacedMethodsListed twoMethods) ∧ EveryMethodListed twoMethods := by
  have enforced : EveryMethodListed twoMethods ↔ ReplacedMethodsListed twoMethods :=
    allowlist_holds_iff parse_serdeJson twoMethods (by decide +kernel)
  have replaced : ((document twoMethods).map fun d => (d.membersOf "method").dropLast.map listed) =
      some [true] := by decide +kernel
  obtain ⟨d, read, members⟩ := Option.map_eq_some_iff.mp replaced
  refine ⟨enforced, enforced.mpr fun d' read' method member => ?_⟩
  rw [read] at read'
  cases read'
  have among := List.mem_map_of_mem (f := listed) member
  rw [members, List.mem_singleton] at among
  exact among

/-- A text that passes the check and hides `remove_account` from it. -/
theorem allowlist_bypassed :
    SerdeJson parse ∧
      validateMethod parse "\x7b\"method\": \"remove_account\", \"method\": \"get_block\"\x7d" = .ok true ∧
      ¬ EveryMethodListed "\x7b\"method\": \"remove_account\", \"method\": \"get_block\"\x7d" := by
  refine ⟨parse_serdeJson, by decide +kernel, fun every => ?_⟩
  have hidden : ((document "\x7b\"method\": \"remove_account\", \"method\": \"get_block\"\x7d").map
      fun d => (d.membersOf "method").map listed) = some [false, true] := by decide +kernel
  obtain ⟨d, read, members⟩ := Option.map_eq_some_iff.mp hidden
  have all : ∀ b ∈ (d.membersOf "method").map listed, b = true := by
    intro b member
    obtain ⟨method, among, rfl⟩ := List.mem_map.mp member
    exact every d read method among
  rw [members] at all
  exact absurd (all false List.mem_cons_self) (by decide)

end FullServiceMirror
