import Orvex.Core.Database
import Orvex.Foundation.Records

/-!
# What identifies a row

The columns that no write touches once the row is there: all but statuses,
totals, time stamps, and pointers to what is active.
-/

namespace Orvex

def Agent.identity (agent : Agent) : Agent :=
  { agent with
    status := .created
    activeConstitutionId := none
    activePolicyId := none }

def Constitution.identity (c : Constitution) : Constitution :=
  { c with status := .draft, activatedAt := none, deactivatedAt := none }

def Policy.identity (policy : Policy) : Policy :=
  { policy with currentVersion := 0, status := .draft }

def PolicyVersion.identity (version : PolicyVersion) : PolicyVersion :=
  { version with
    status := .draft
    activatedAt := none
    deactivatedAt := none
    approvedBy := none }

def FinancialAccount.identity (account : FinancialAccount) :
    FinancialAccount :=
  { account with currentReserved := 0, currentCommitted := 0 }

def FinancialReservation.identity (res : FinancialReservation) :
    FinancialReservation :=
  { res with
    status := .reserved
    releasedAt := none
    committedAt := none }

def ApprovalRequest.identity (request : ApprovalRequest) :
    ApprovalRequest :=
  { request with status := .pending }

def ExecutionRequestRecord.identity (request : ExecutionRequestRecord) :
    ExecutionRequestRecord :=
  { request with status := .authorized }

def accountTable : Table Database FinancialAccount where
  key := FinancialAccount.id
  rows := Database.financialAccounts
  put l db := { db with financialAccounts := l }
  rows_put _ _ := rfl

theorem identifies_account :
    KeyedTable.Identifies FinancialAccount.id FinancialAccount.identity :=
  KeyedTable.identifies_of_key (fun _ => rfl)

end Orvex
