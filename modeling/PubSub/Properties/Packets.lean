import PubSub.Subscriber.Loop

/-!
# The packets of a subscriber

Whatever the user types, a packet is a whole record, and the ten bytes that the server
reads an id from are the first ten of the client's own.
-/
namespace PubSub.Properties

open General

/-- The id under which the server knows a client, however long the client's own is. -/
def shortId (id : Bytes) : Bytes := cString (id.take 10)

/-- A record sent by the client with this id. -/
structure Stamped (id packet : Bytes) : Prop where
  size : packet.length = sizeofTcpRequest
  front : packet.take 10 = (id ++ List.replicate 10 0).take 10

section

variable {id packet packet' : Bytes}

theorem Stamped.clientId (stamped : Stamped id packet) :
    TcpRequest.clientId ⟨packet, stamped.size⟩ = shortId id := by
  have size : packet.length = 68 := stamped.size
  have split : packet.set 10 0 = packet.take 10 ++ 0 :: packet.drop 11 := by
    rw [List.set_eq_take_append_cons_drop, if_pos (by omega)]
  -- A short id is followed by zeros, which end it as the server's own NUL does.
  have padded : cString ((id ++ List.replicate 10 0).take 10) = cString (id.take 10) := by
    rw [List.take_append]
    cases left : 10 - id.length with
    | zero => simp
    | succ n =>
      rw [List.take_replicate, show min (n + 1) 10 = n + 1 by omega, List.replicate_succ,
        cString_terminated]
  rw [TcpRequest.clientId, shortId]
  simp only [offsetId, Nat.zero_add, List.drop_zero]
  rw [split, stamped.front, cString_terminated, padded]

/-- Everything behind the id may be overwritten. -/
theorem Stamped.overwrite (stamped : Stamped id packet) (offset : Nat) (data : Bytes)
    (behind : 10 ≤ offset) (fits : offset + data.length ≤ sizeofTcpRequest) : Stamped id (store packet offset data) := by
  have fits : offset + data.length ≤ packet.length := by rw [stamped.size]; exact fits
  constructor
  · rw [store_length _ _ _ fits, stamped.size]
  · rw [store_take _ _ _ fits _ behind, stamped.front]

theorem Stamped.copy {offset : Nat} {text : Bytes} (stamped : Stamped id packet) (behind : 10 ≤ offset)
    (copied : strcpy packet offset text = some packet') : Stamped id packet' := by
  simp only [strcpy] at copied
  split at copied
  next fits =>
    cases copied
    apply stamped.overwrite offset _ behind
    rw [List.length_append, List.length_singleton, ← stamped.size]
    omega
  · cases copied

theorem stamped_fresh (copied : strcpy emptyRequest offsetId id = some packet) : Stamped id packet := by
  have zeros : emptyRequest.length = 68 := List.length_replicate
  simp only [strcpy] at copied
  split at copied
  next fits =>
    cases copied
    have inside : offsetId + (id ++ [0]).length ≤ emptyRequest.length := by
      rw [List.length_append, List.length_singleton]
      omega
    refine ⟨by rw [store_length _ _ _ inside, zeros]; rfl, ?_⟩
    rw [store, offsetId, List.take_zero, List.nil_append, emptyRequest, List.drop_replicate]
    have behind : [0] ++ List.replicate (sizeofTcpRequest - (0 + (id ++ [0]).length)) (0 : UInt8) =
        List.replicate (sizeofTcpRequest - id.length) 0 := by
      rw [List.singleton_append, ← List.replicate_succ]
      congr 1
      rw [zeros] at inside
      simp only [sizeofTcpRequest, offsetId, List.length_append, List.length_singleton] at inside ⊢
      omega
    rw [List.append_assoc, behind, List.take_append, List.take_append, List.take_replicate,
      List.take_replicate]
    congr 2
    simp only [sizeofTcpRequest]
    omega
  · cases copied

/-- The record of a CONNECT. -/
theorem connect_stamped (sent : sendConnectMessage id = some packet) :
    ∃ stamped : Stamped id packet, TcpRequest.type ⟨packet, stamped.size⟩ = .message := by
  simp only [sendConnectMessage, Option.bind_eq_bind, Option.bind_eq_some_iff] at sent
  obtain ⟨named, copied, sent⟩ := sent
  cases sent
  have stamped := stamped_fresh copied
  have word : (leBytes 4 Command.message.word).length = 4 := leBytes_length _ _
  have typed := stamped.overwrite offsetType (leBytes 4 Command.message.word)
    (by decide) (by decide)
  refine ⟨typed.overwrite _ _ (by decide) (by decide), ?_⟩
  -- The system message is written in front of the type.
  have read := store_read named offsetType (leBytes 4 Command.message.word)
    (by rw [stamped.size]; decide)
  rw [word] at read
  rw [TcpRequest.type, store_drop _ _ _ (by rw [typed.size]; decide) _ (by decide), read]
  decide

theorem process_stamped {cmd : Bytes} {argv : List Bytes} {result : CommandResult}
    (done : processUserCommand cmd argv id = some result) : ∀ packet ∈ result.sent, Stamped id packet := by
  have nothing : ∀ text leave, result = ⟨[], text, leave⟩ → ∀ packet ∈ result.sent, Stamped id packet := by
    rintro text leave rfl packet member
    cases member
  have one : ∀ req text leave, Stamped id req → result = ⟨[req], text, leave⟩ →
      ∀ packet ∈ result.sent, Stamped id packet := by
    rintro req text leave stamped rfl packet member
    rw [List.mem_singleton.mp member]
    exact stamped
  simp only [processUserCommand] at done
  split at done
  next exit =>
    split at done
    · exact nothing _ _ (Option.some.inj done).symm
    next alone =>
      simp only [Option.bind_eq_bind, Option.bind_eq_some_iff] at done
      obtain ⟨named, copied, done⟩ := done
      exact one _ _ _ ((stamped_fresh copied).overwrite _ _ (by decide) (by decide)) (Option.some.inj done).symm
  next other =>
    split at done
    next subscribe =>
      split at done
      · exact nothing _ _ (Option.some.inj done).symm
      next enough =>
        simp only [Option.bind_eq_bind, Option.bind_eq_some_iff] at done
        obtain ⟨named, copied, req, topic, done⟩ := done
        have typed := (stamped_fresh copied).overwrite offsetType
          (leBytes 4 Command.subscribe.word) (by decide) (by decide)
        refine one _ _ _ ?_ (Option.some.inj done).symm
        exact (typed.copy (by decide) topic).overwrite _ _ (by decide) (by simp [offsetSf, sizeofTcpRequest])
    next other =>
      split at done
      next unsubscribe =>
        split at done
        · exact nothing _ _ (Option.some.inj done).symm
        next two =>
          simp only [Option.bind_eq_bind, Option.bind_eq_some_iff] at done
          obtain ⟨named, copied, req, topic, done⟩ := done
          have typed := (stamped_fresh copied).overwrite offsetType
            (leBytes 4 Command.unsubscribe.word) (by decide) (by decide)
          exact one _ _ _ (typed.copy (by decide) topic) (Option.some.inj done).symm
      · exact nothing _ _ (Option.some.inj done).symm

/-- Whatever the user types, what is sent are records of this client. -/
theorem input_stamped {line : Bytes} {result : CommandResult}
    (done : handleUserInput line id = some result) : ∀ packet ∈ result.sent, Stamped id packet := by
  simp only [handleUserInput] at done
  split at done
  · cases done
    intro packet member
    cases member
  · exact process_stamped done

end

end PubSub.Properties
