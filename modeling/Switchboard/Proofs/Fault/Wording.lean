import Mathlib.Logic.Function.Basic
import Switchboard.Fault
/-!
# Faults in words

A fault is known by its words, and so is the status that a foreign host gets of it. What the words
begin with tells the kind of the fault, whatever the text that follows: no beginning is itself the
beginning of another one. What follows tells the rest; it is a text of any kind, or the decimal
number of a request. The words of a status end with its code, which has one digit.
-/
namespace Switchboard

namespace ErrorCode

/-- What the words begin with. -/
def mark : ErrorCode → String
  | ok => "ok"
  | invalidArgument => "invalid argument: "
  | invalidState => "invalid state: "
  | cancelled => "cancelled: "
  | unknownRequest => "unknown request "
  | dispatchFailure => "dispatch failure: "

/-- The mark of one code is never the beginning of another. -/
theorem eq_of_prefix_mark {c d : ErrorCode} (h : c.mark.toList <+: d.mark.toList) : c = d := by
  cases c <;> cases d <;> revert h <;> decide

/-- Words with a mark in front tell which one it is, and what follows it. -/
theorem mark_append_inj {c d : ErrorCode} {s t : String} :
    c.mark ++ s = d.mark ++ t ↔ c = d ∧ s = t := by
  constructor
  · intro h
    have hlists : c.mark.toList ++ s.toList = d.mark.toList ++ t.toList := by
      rw [← String.toList_append, ← String.toList_append, h]
    have hc : c.mark.toList <+: d.mark.toList ++ t.toList := ⟨_, hlists⟩
    obtain rfl : c = d := by
      rcases List.prefix_or_prefix_of_prefix hc (List.prefix_append _ _) with hcd | hdc
      · exact eq_of_prefix_mark hcd
      · exact (eq_of_prefix_mark hdc).symm
    exact ⟨rfl, String.toList_injective (List.append_cancel_left hlists)⟩
  · rintro ⟨rfl, rfl⟩
    rfl

end ErrorCode

/-- Requests are told apart by their texts. -/
theorem RequestId.text_injective : Function.Injective RequestId.text := by
  intro id id' h
  have hlists : "req#".toList ++ (toString id.value.toNat).toList =
      "req#".toList ++ (toString id'.value.toNat).toList := by
    rw [← String.toList_append, ← String.toList_append]
    exact congrArg String.toList h
  have hdigits := List.append_cancel_left hlists
  simp only [Nat.toString_eq_repr, Nat.toList_repr] at hdigits
  have hvalue := congrArg (fun digits => Nat.ofDigitChars 10 digits 0) hdigits
  simp only [Nat.ofDigitChars_toDigits (b := 10) (by decide) (by decide)] at hvalue
  obtain ⟨value⟩ := id
  obtain ⟨value'⟩ := id'
  exact congrArg RequestId.mk (UInt64.toNat_inj.mp hvalue)

namespace Fault

/-- What a fault says besides its kind. -/
def detail : Fault → String
  | invalidArgument text | invalidState text | dispatchFailure text => text
  | cancelled reason => reason
  | unknownRequest id => id.text

theorem message_eq (e : Fault) : e.message = e.code.mark ++ e.detail := by
  cases e <;> rfl

/-- A fault is its kind and what it says besides. -/
theorem eq_of_detail {e e' : Fault} (hcode : e.code = e'.code) (hdetail : e.detail = e'.detail) :
    e = e' := by
  cases e <;> cases e' <;> cases hcode
  · exact congrArg invalidArgument hdetail
  · exact congrArg invalidState hdetail
  · exact congrArg cancelled hdetail
  · exact congrArg unknownRequest (RequestId.text_injective hdetail)
  · exact congrArg dispatchFailure hdetail

/-- A fault is known by its words. -/
theorem message_inj {e e' : Fault} : e.message = e'.message ↔ e = e' := by
  constructor
  · intro h
    rw [message_eq, message_eq, ErrorCode.mark_append_inj] at h
    exact eq_of_detail h.1 h.2
  · rintro rfl
    rfl

theorem code_ne_ok (e : Fault) : e.code ≠ .ok := by
  cases e <;> nofun

end Fault

namespace Status

/-- What stands behind the message in the words of a status. -/
def codeMark (c : ErrorCode) : String := " (" ++ toString c.toInt32.toInt ++ ")"

/-- Every code has one digit. -/
theorem length_codeMark (c : ErrorCode) : (codeMark c).toList.length = 4 := by
  cases c <;> rfl

theorem isOk_ofFault (e : Fault) : (ofFault e).isOk = false := by
  cases e <;> rfl

@[simp] theorem errorCode?_ofFault (e : Fault) : (ofFault e).errorCode? = some e.code :=
  ErrorCode.ofInt32?_toInt32 e.code

theorem text_ofFault (e : Fault) : (ofFault e).text = e.message ++ codeMark e.code := by
  rw [text, isOk_ofFault, codeMark, ← String.append_assoc, ← String.append_assoc]
  rfl

theorem text_of_isOk {s : Status} (h : s.isOk = true) : s.text = ErrorCode.ok.mark :=
  if_pos h

/-- The status of a fault is known by its words, though the message in them may be any text. -/
theorem text_ofFault_inj {e e' : Fault} : (ofFault e).text = (ofFault e').text ↔ e = e' := by
  constructor
  · intro h
    rw [text_ofFault, text_ofFault] at h
    have hlists : e.message.toList ++ (codeMark e.code).toList =
        e'.message.toList ++ (codeMark e'.code).toList := by
      rw [← String.toList_append, ← String.toList_append, h]
    have hlength : (codeMark e.code).toList.length = (codeMark e'.code).toList.length := by
      rw [length_codeMark, length_codeMark]
    obtain ⟨hmessage, -⟩ := List.append_inj' hlists hlength
    exact Fault.message_inj.mp (String.toList_injective hmessage)
  · rintro rfl
    rfl

/-- The words of a fault are never those of success. -/
theorem text_ofFault_ne_ok (e : Fault) : (ofFault e).text ≠ ErrorCode.ok.mark := by
  intro h
  have hmarked : e.code.mark ++ (e.detail ++ codeMark e.code) = ErrorCode.ok.mark ++ "" := by
    rw [← String.append_assoc, ← Fault.message_eq, ← text_ofFault, h, String.append_empty]
  exact e.code_ne_ok (ErrorCode.mark_append_inj.mp hmarked).1

/-- Nothing is lost of a fault when a host gets its status. Already its words tell it from every
other fault. The status is none of success and has the code of the fault; its own words, the message
with the code in brackets, tell it from every other fault and from every success. -/
theorem ofFault_faithful :
    (∀ e e' : Fault, ofFault e = ofFault e' ↔ e = e') ∧
    (∀ e e' : Fault, e.message = e'.message ↔ e = e') ∧
    (∀ e : Fault, (ofFault e).isOk = false ∧ (ofFault e).errorCode? = some e.code) ∧
    (∀ e : Fault, (ofFault e).text = e.message ++ " (" ++ toString e.code.toInt32.toInt ++ ")") ∧
    (∀ e e' : Fault, (ofFault e).text = (ofFault e').text ↔ ofFault e = ofFault e') ∧
    ∀ (e : Fault) (s : Status), s.isOk = true → (ofFault e).text ≠ s.text := by
  have hinj (e e' : Fault) : ofFault e = ofFault e' ↔ e = e' := by
    refine ⟨fun h => Fault.message_inj.mp (congrArg Status.message h), ?_⟩
    rintro rfl
    rfl
  refine ⟨hinj, fun e e' => Fault.message_inj, fun e => ⟨isOk_ofFault e, errorCode?_ofFault e⟩,
    fun e => ?_, fun e e' => text_ofFault_inj.trans (hinj e e').symm, fun e s hs => ?_⟩
  · rw [text_ofFault, codeMark, ← String.append_assoc, ← String.append_assoc]
  · rw [text_of_isOk hs]
    exact text_ofFault_ne_ok e

/-- A cancellation whose reason reads like the words of a status, and a success whose message is
never shown. -/
theorem ofFault_cancelled_faithful :
    (ofFault (.cancelled "ok (0)")).text ≠ (ofFault (.cancelled "ok")).text ∧
      (⟨0, "cancelled: ok (3)"⟩ : Status).isOk = true ∧
      (ofFault (.cancelled "ok")).text ≠ (⟨0, "cancelled: ok (3)"⟩ : Status).text := by
  obtain ⟨hinj, -, -, -, htext, hok⟩ := ofFault_faithful
  refine ⟨?_, rfl, hok _ _ rfl⟩
  rw [Ne, htext, hinj]
  decide

end Status
end Switchboard
