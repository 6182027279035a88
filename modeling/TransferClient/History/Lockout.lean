import TransferClient.HandleClient.Secrets
import TransferClient.HandleClient.Sessions
import TransferClient.History.Theorems
import TransferClient.Server

namespace TransferClient

open Interaction Bytes Client ProtocolHandler ServerRequests ServerResponses

-- The server registers no name a second time.
def RegistersOnce (earlier : List Trace) (run : Trace) : Prop :=
  ∀ past request answer future, run = past ++ sent request :: got answer :: future →
    request.code = REGISTRATION → Registered earlier request.payload →
    answer.code ≠ REGISTRATION_SUCCESS

-- transfer.info gives the client this name.
def GoesAs (name : List UInt8) (run : Trace) : Prop :=
  ∀ contents info, ⟨.ifstream TRANSFER_INFO_PATH, some contents⟩ ∈ run →
    FileHandler.transferInfoOf contents = .ok info → info.name = name

-- The operations of a run that does not get in: it asks to be registered, and no more.
def RefusedOp : Op → Prop
  | .sendRequest request => request.code = REGISTRATION
  | .newArray _ | .socket | .connect _ _ | .getResponse | .ifstream _ => True
  | .ifstreamAte _ | .ofstream _ | .put _ _ | .generateKeyPair | .rsaDecrypt _ _ | .generateBlock =>
      False

section Lost

variable {crypto : CryptoPP} {runs : List Trace} {disk : Disk} {run : Trace} {name : List UInt8}

-- Without me.info, and with a server that does not register the name, a run is turned down.
theorem RunsOn.refused (hruns : RunsOn crypto disk run) (hnone : disk ME_INFO_PATH = none)
    (hname : GoesAs name run)
    (hrefused : ∀ past request answer future, run = past ++ sent request :: got answer :: future →
      request.code = REGISTRATION → request.payload = nameField name →
      answer.code ≠ REGISTRATION_SUCCESS) :
    ∀ event ∈ run, RefusedOp event.op := by
  obtain ⟨⟨rest, outcome, hwhole⟩, hreads⟩ := hruns
  have hbegins : run <+: run ++ rest := List.prefix_append run rest
  have hconfigured := handleClient_configured crypto _ outcome hwhole
  generalize run ++ rest = whole at hbegins hconfigured
  have hall (hwhole : ∀ event ∈ whole, RefusedOp event.op) : ∀ event ∈ run, RefusedOp event.op :=
    fun event hevent => hwhole event (hbegins.subset hevent)
  -- The run is cut off before it gets through the first part.
  have hcut (first more : Trace) (hsplit : whole = first ++ more)
      (hfirst : ∀ event ∈ first, RefusedOp event.op) (hlong : ¬first <+: run) :
      ∀ event ∈ run, RefusedOp event.op := by
    have hparts : first <+: whole := by
      rw [hsplit]
      exact List.prefix_append first more
    rcases List.prefix_or_prefix_of_prefix hbegins hparts with hshort | hthrough
    · exact fun event hevent => hfirst event (hshort.subset hevent)
    · exact absurd hthrough hlong
  -- What is not there is not read.
  have hunread (contents lines : List UInt8) :
      ¬[⟨.ifstream TRANSFER_INFO_PATH, some contents⟩, ⟨.ifstream ME_INFO_PATH, some lines⟩] <+: run := by
    rintro ⟨future, rfl⟩
    have hread : disk ME_INFO_PATH = some lines := hreads [_] _ future rfl
    rw [hnone] at hread
    cases hread
  cases hconfigured with
  | unopened stop => exact hall (by simp [RefusedOp])
  | rejected contents exception hinfo => exact hall (by simp [RefusedOp])
  | unknown contents info rest outcome hinfo hfallback =>
      rw [runs_connecting] at hfallback
      rcases hfallback with ⟨rfl, _⟩ | ⟨rfl, _⟩ | ⟨rest, rfl, hregisters⟩
      · exact hall (by simp [RefusedOp])
      · exact hall (by simp [RefusedOp])
      · have hregistration := handleRegistration_registration crypto _ rest outcome hregisters
        cases hregistration with
        | refused buffer answer hcode => exact hall (by simp [RefusedOp, asked, connectionRequest])
        | approved buffer answer rest outcome hcode happroved =>
            generalize hself : configured info info.name = self at hregisters happroved hcut
            let opened : Trace := [⟨.ifstream TRANSFER_INFO_PATH, some contents⟩,
              ⟨.ifstream ME_INFO_PATH, none⟩, ⟨.socket, true⟩,
              ⟨.connect self.sin_addr self.sin_port, true⟩, ⟨.newArray 16, buffer⟩]
            refine hcut (opened ++ [sent (self.connectionRequest REGISTRATION), got answer]) rest
              (by simp [opened, asked]) (by simp [opened, RefusedOp, connectionRequest]) ?_
            rintro ⟨future, hrun⟩
            have hsame := hname contents info (by simp [← hrun, opened]) hinfo
            refine hrefused opened (self.connectionRequest REGISTRATION) answer future
              (by simp [← hrun]) rfl ?_
              hcode
            rw [connectionRequest_payload, ← hself, ← hsame]
            rfl
  | known contents lines info self rest outcome hinfo hself hknown houtcome =>
      exact hcut _ rest rfl (by simp [RefusedOp]) (hunread contents lines)
  | failed contents lines info self first rest what outcome hinfo hself hknown hfallback =>
      exact hcut _ (first ++ rest) (List.append_assoc _ _ _) (by simp [RefusedOp])
        (hunread contents lines)

-- As long as no run has opened it for writing, there is no me.info.
theorem History.unwritten (hhistory : History crypto runs disk)
    (hruns : ∀ run ∈ runs, emptied ∉ run) :
    disk ME_INFO_PATH = none := by
  induction hhistory with
  | installed disk hnew => exact hnew
  | edited runs disk disk' hhistory hkept ih => exact hkept.trans (ih hruns)
  | ran runs disk run hhistory hrun ih =>
      have hno : emptied ∉ run := hruns run (by simp)
      obtain ⟨rest, outcome, hwhole⟩ := hrun.runs
      have hrecorded := (handleClient_keepsRecord hwhole).1.of_append_left
      have hbefore := ih fun other hother => hruns other (by simp [hother])
      -- What is put into me.info stands behind the event that empties it.
      refine (hrecorded.foldl_invariant Disk.event disk
        (fun past state => emptied ∉ past → state ME_INFO_PATH = none) (fun _ => hbefore) ?_) hno
      intro past event state hevent hinv hpast
      simp only [List.mem_append, List.mem_singleton, not_or] at hpast
      obtain ⟨hpast, hempties⟩ := hpast
      rw [state.event_meInfo event (fun h => hempties h.symm), hinv hpast]
      intro content hop
      exact hpast (List.mem_of_getLast? (hevent.entry content hop).1)

-- Runs that are turned down do not open it.
theorem emptied_notMem_of_refused {before later : List Trace} {lost : Trace}
    (hunwritten : ∀ run ∈ before ++ [lost], emptied ∉ run)
    (hrefused : ∀ run ∈ later, ∀ event ∈ run, RefusedOp event.op) :
    ∀ run ∈ before ++ lost :: later, emptied ∉ run := by
  intro run hrun
  rcases List.mem_append.mp hrun with hbefore | hrest
  · exact hunwritten run (by simp [hbefore])
  · rcases List.mem_cons.mp hrest with rfl | hafter
    · exact hunwritten run (by simp)
    · exact fun hmem => hrefused run hafter emptied hmem

theorem History.refused {before : List Trace} {lost : Trace} (hhistory : History crypto runs disk)
    (hserver : AtEach RegistersOnce runs) (hlost : Registered [lost] (nameField name))
    (hunwritten : ∀ run ∈ before ++ [lost], emptied ∉ run) (later : List Trace)
    (hsplit : runs = before ++ lost :: later) (hname : ∀ run ∈ later, GoesAs name run) :
    ∀ run ∈ later, ∀ event ∈ run, RefusedOp event.op := by
  induction hhistory generalizing later with
  | installed disk hnew => cases before <;> cases hsplit
  | edited runs disk disk' hhistory hkept ih => exact ih hserver later hsplit hname
  | ran runs disk last hhistory hruns ih =>
      rcases List.eq_nil_or_concat later with rfl | ⟨middle, other, rfl⟩
      · simp
      · have hends : runs ++ [last] = (before ++ lost :: middle) ++ [other] := by simp [hsplit]
        obtain ⟨rfl, hlast⟩ := List.append_inj' hends rfl
        cases hlast
        have hmiddle :=
          ih hserver.of_append_left middle rfl fun run hrun => hname run (by simp [hrun])
        have hnone := hhistory.unwritten (emptied_notMem_of_refused hunwritten hmiddle)
        have hregistered : Registered (before ++ lost :: middle) (nameField name) := by
          obtain ⟨run, hrun, hexchange⟩ := hlost
          exact ⟨run, by simp [List.mem_singleton.mp hrun], hexchange⟩
        have hlastRefused : ∀ event ∈ last, RefusedOp event.op := by
          refine hruns.refused hnone (hname last (by simp)) ?_
          intro past request answer future hexchange hcode hpayload
          exact hserver _ last [] rfl past request answer future hexchange hcode
            (hpayload ▸ hregistered)
        intro run hrun
        rcases List.mem_append.mp (List.concat_eq_append ▸ hrun) with hmem | hmem
        · exact hmiddle run hmem
        · rw [List.mem_singleton.mp hmem]
          exact hlastRefused

end Lost

namespace Sample

-- The server has registered the client, and the machine goes off.
def lost : Trace :=
  [⟨.ifstream TRANSFER_INFO_PATH,
      some (text "127.0.0.1:8080" ++ [10] ++ text "name" ++ [10] ++ text "file")⟩,
    ⟨.ifstream ME_INFO_PATH, none⟩, ⟨.socket, true⟩, ⟨.connect client.sin_addr client.sin_port, true⟩,
    ⟨.newArray 16, clientId⟩, sent (client.connectionRequest REGISTRATION),
    got ⟨51, REGISTRATION_SUCCESS, 16, clientId.val⟩]

end Sample

end TransferClient
