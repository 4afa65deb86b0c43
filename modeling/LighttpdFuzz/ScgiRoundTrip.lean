import LighttpdFuzz.ScgiFront
import LighttpdFuzz.FastcgiMultiplex

/-!
# SCGI requests round-trip

An SCGI client writes its names and values with a NUL after each, puts the
decimal length of this block and a colon before it and a comma and the body
after it. The handler gets all of it back: the length (`toInt_ofNat`), the
names and values with the last value of a name winning
(`headers_lastValue`), the body, and nothing of what comes after.
-/

namespace LighttpdFuzz

open Connection

/-- The request of a client. -/
def scgiRequest (params : List (Bytes × Bytes)) (body : Bytes) : Bytes :=
  Bytes.ofNat (scgiBlock params).length ++ [0x3a] ++ scgiBlock params ++ [0x2c] ++ body

/-- The value that a client gives last for a name. -/
def lastValue (name : Bytes) (params : List (Bytes × Bytes)) : Option Bytes :=
  (params.reverse.find? fun e => decide (e.1 = name)).map Prod.snd

theorem decodeLatin1_injective : Function.Injective decodeLatin1 := by
  refine List.map_injective_iff.mpr fun b b' h => ?_
  have hval : ∀ b : UInt8, (Char.ofNat b.toNat).toNat = b.toNat := fun b => by
    have hb := b.toNat_lt
    have hvalid : b.toNat.isValidChar := Or.inl (by omega)
    rw [Char.ofNat, dif_pos hvalid]
    rfl
  have hnat := congrArg Char.toNat h
  rw [hval, hval] at hnat
  exact UInt8.toNat_inj.mp hnat

/-- In the decoded map the last value of each name wins. -/
theorem headers_lastValue (params : List (Bytes × Bytes)) (name : Bytes) :
    (decodedParams params).get (decodeLatin1 name) = lastValue name params := by
  have hsame : (fun e : Bytes × Bytes => decide (decodeLatin1 e.1 = decodeLatin1 name))
      = fun e => decide (e.1 = name) := by
    funext e
    exact decide_eq_decide.mpr decodeLatin1_injective.eq_iff
  rw [decodedParams, AssocMap.get_setAll_last, hsame, AssocMap.get_empty, Option.or_none]
  rfl

def contentLengthBytes : Bytes := Bytes.ascii "CONTENT_LENGTH"

/-- The mode that a request selects. -/
def scgiMode (lib : PyLibrary) (params : List (Bytes × Bytes)) : Text :=
  selectMode lib ((lastValue (Bytes.ascii "REQUEST_URI") params).getD (Bytes.ascii "/"))
    (cgiHeaders lib (decodedParams params))

/-- What the handler makes of a request. -/
structure ScgiRun (lib : PyLibrary) (maxRequest : Nat) (params : List (Bytes × Bytes))
    (body trailing : Bytes) (cuts accepts : List Nat) : Prop where
  decoded : parseScgiHeaders (scgiBlock params) = .ok (decodedParams params)
  last : ∀ name, (decodedParams params).get (decodeLatin1 name) = lastValue name params
  only : ∀ key, (∀ e ∈ params, decodeLatin1 e.1 ≠ key) → (decodedParams params).get key = none
  answered : ∃ c', handleScgi lib maxRequest
      (fresh (scgiRequest params body ++ trailing) cuts accepts) = (.ok true, c')
    ∧ c'.incoming = trailing
    ∧ c'.written = (responsePlan lib (scgiMode lib params) false body).data

/-- A request is read as it was written, whatever the division of the
stream. `int` reads no more than 4300 digits; no byte string is so long
that its length has more. -/
theorem scgi_round_trip (lib : PyLibrary) (maxRequest : Nat) (params : List (Bytes × Bytes))
    (body trailing : Bytes) (cuts accepts : List Nat)
    (hparams : ∀ e ∈ params, 0 ∉ e.1 ∧ 0 ∉ e.2)
    (hblock : 1 ≤ (scgiBlock params).length ∧ (scgiBlock params).length ≤ maxHeaders)
    (hlength : lastValue contentLengthBytes params = some (Bytes.ofNat body.length))
    (hbody : body.length ≤ maxRequest) (hdigits : (Bytes.ofNat body.length).length ≤ 4300) :
    ScgiRun lib maxRequest params body trailing cuts accepts := by
  have hparse := parseScgiHeaders_joined hparams
  refine ⟨hparse, headers_lastValue params, fun _ => AssocMap.get_setAll_none, ?_⟩
  have hshort : (Bytes.ofNat (scgiBlock params).length).length ≤ 5 :=
    Bytes.length_ofNat_le (by decide) (Nat.lt_of_le_of_lt hblock.2 (by decide))
  have hcontent : Bytes.toInt (((decodedParams params).get contentLengthVariable).getD
      (Bytes.ascii "0")) = some (body.length : Int) := by
    have hget : (decodedParams params).get contentLengthVariable
        = some (Bytes.ofNat body.length) := by
      rw [← hlength, ← headers_lastValue]
      rfl
    rw [hget]
    exact Bytes.toInt_ofNat hdigits
  have hmode : selectMode lib (((decodedParams params).get requestUri).getD (Bytes.ascii "/"))
      (cgiHeaders lib (decodedParams params)) = scgiMode lib params := by
    rw [scgiMode, ← headers_lastValue]
    rfl
  have hstream : scgiRequest params body ++ trailing
      = Bytes.ofNat (scgiBlock params).length
        ++ (0x3a :: (scgiBlock params ++ (0x2c :: (body ++ trailing)))) := by
    simp [scgiRequest]
  obtain ⟨cuts', accepts', hrun⟩ := handleScgi_run
    (c := fresh (scgiRequest params body ++ trailing) cuts accepts) hstream
    (fun b hb => Bytes.isDigit_ofNat hb) (Bytes.ofNat_ne_nil _) (by omega)
    (Bytes.toInt_ofNat (by omega)) (List.length_pos_iff.mp hblock.1) hblock.2 hparse hcontent
    hbody hmode
  exact ⟨_, hrun, rfl, List.nil_append _⟩

/-- Repeated names, an empty name and empty values. -/
def demoScgiParams : List (Bytes × Bytes) :=
  [(contentLengthBytes, []), ([], Bytes.ascii "x"), (Bytes.ascii "REQUEST_URI", Bytes.ascii "/a"),
    (contentLengthBytes, Bytes.ascii "3"), (Bytes.ascii "HTTP_X_BACKEND_MODE", Bytes.ascii "103"),
    (Bytes.ascii "LAST", [])]

theorem scgi_round_trip_demo :
    ScgiRun demoLibrary maxRequest demoScgiParams (Bytes.ascii "abc") (Bytes.ascii "more") [1, 2]
      [1] :=
  scgi_round_trip demoLibrary maxRequest demoScgiParams (Bytes.ascii "abc") (Bytes.ascii "more")
    [1, 2] [1] (by decide +kernel) (by decide +kernel) (by decide +kernel) (by decide +kernel)
    (by decide +kernel)

end LighttpdFuzz
